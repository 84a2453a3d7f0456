/-
Module: DatasetLineage.Proofs.UnambiguousJson
Purpose: A JSON text determines the value that it lays out. A written character can be read back,
  a literal and a number end where the text says so, and the first character of a value tells its
  kind; so two values that begin one text in the compact layout are equal, and so is what stands
  behind them. A report on the lineage of files in JSON therefore tells its edges, warnings and
  cycles, in both layouts. Of the writer only what `WritesJson` says is used.
Main exports: readCharacter?, EndsNumber, JsonKind, TellsItself, WritesJson.tellsItself,
  JsonValue.compact_inj, Edge.json_inj, Warning.json_inj, Cycle.json_inj, Extraction.SameReport,
  Extraction.json_eq_iff, Extraction.jsonReport_layouts
-/
import DatasetLineage.Proofs.JsonLayouts
import DatasetLineage.Report.Rendering

namespace DatasetLineage

/-! ### Literals -/

section Literals

variable {character : Char → List Char} {one other : List Char} {text otherText : List Char}

/-- The number that a hexadecimal digit in lower case stands for. -/
def hexValue (c : Char) : Nat := if c.toNat < 0x3a then c.toNat - 0x30 else c.toNat - 0x57

theorem hexValue_hexDigit : ∀ n < 16, hexValue (hexDigit n) = n := by decide

/-- The first character of what is left of a literal, and the text behind it, unless the literal
    ends there. -/
def readCharacter? : List Char → Option (Char × List Char)
  | '\\' :: 'u' :: '0' :: '0' :: high :: low :: rest =>
    some (Char.ofNat (16 * hexValue high + hexValue low), rest)
  | '\\' :: letter :: rest => (escaped? letter).map (·, rest)
  | '\x22' :: _ => none
  | c :: rest => some (c, rest)
  | [] => none

theorem EscapesJson.readCharacter?_character (escapes : EscapesJson character) (c : Char)
    (rest : List Char) : readCharacter? (character c ++ rest) = some (c, rest) := by
  rcases escapes.cases c with ⟨letter, written, stands⟩ | ⟨written, control⟩ |
    ⟨written, noBackslash, noQuote⟩
  · have noDigits : letter ≠ 'u' := by
      rintro rfl
      exact Option.some_ne_none c stands.symm
    rw [written]
    simp [readCharacter?, noDigits, stands]
  · have digits : 16 * hexValue (hexDigit (c.toNat / 16)) + hexValue (hexDigit (c.toNat % 16)) =
        c.toNat := by
      rw [hexValue_hexDigit _ (by omega), hexValue_hexDigit _ (by omega), Nat.div_add_mod]
    rw [written]
    simp only [List.cons_append, List.nil_append, readCharacter?]
    rw [digits, Char.ofNat_toNat]
  · rw [written]
    simp [readCharacter?, noBackslash]

/-- A literal tells its characters and where it ends. -/
theorem EscapesJson.literal_append_inj (escapes : EscapesJson character)
    (same : one.flatMap character ++ '\x22' :: text =
      other.flatMap character ++ '\x22' :: otherText) :
    one = other ∧ text = otherText := by
  have read := congrArg readCharacter? same
  induction one generalizing other with
  | nil =>
      cases other with
      | nil =>
          exact ⟨rfl, List.tail_eq_of_cons_eq same⟩
      | cons d other =>
          rw [List.flatMap_cons, List.append_assoc, escapes.readCharacter?_character] at read
          exact absurd read.symm (Option.some_ne_none _)
  | cons c one ih =>
      rw [List.flatMap_cons, List.append_assoc, escapes.readCharacter?_character] at read
      cases other with
      | nil =>
          exact absurd read (Option.some_ne_none _)
      | cons d other =>
          rw [List.flatMap_cons, List.append_assoc, escapes.readCharacter?_character] at read
          obtain ⟨rfl, behind⟩ := Prod.mk.inj (Option.some.inj read)
          obtain ⟨rfl, rest⟩ := ih behind (congrArg readCharacter? behind)
          exact ⟨rfl, rest⟩

theorem EscapesJson.quoted_append_inj (escapes : EscapesJson character) {one other : String}
    (same : quoted character one ++ text = quoted character other ++ otherText) :
    one = other ∧ text = otherText := by
  simp only [quoted, List.cons_append, List.append_assoc, List.nil_append] at same
  obtain ⟨characters, rest⟩ := escapes.literal_append_inj (List.tail_eq_of_cons_eq same)
  exact ⟨String.toList_inj.mp characters, rest⟩

end Literals

/-! ### Numbers -/

section Numbers

variable {text otherText : List Char}

/-- Whether a number ends in front of a text: no digit stands there. -/
def EndsNumber (text : List Char) : Prop := ∀ c ∈ text.head?, c.isDigit = false

theorem endsNumber_nil : EndsNumber [] := fun _ head => absurd head.symm (Option.some_ne_none _)

theorem endsNumber_cons {c : Char} (noDigit : c.isDigit = false) : EndsNumber (c :: text) := by
  rintro _ ⟨⟩
  exact noDigit

theorem isDigit_of_mem_jsonNumber {c : Char} {n : Nat} (member : c ∈ jsonNumber n) :
    c.isDigit = true :=
  Nat.isDigit_of_mem_toDigits (by decide) (by decide) member

/-- The digits in front of the end of a number are those of the number. -/
theorem takeWhile_isDigit_jsonNumber (n : Nat) (ends : EndsNumber text) :
    (jsonNumber n ++ text).takeWhile Char.isDigit = jsonNumber n := by
  have stops : text.takeWhile Char.isDigit = [] := by
    cases text with
    | nil =>
        rfl
    | cons c text =>
        rw [List.takeWhile_cons, ends c rfl, if_neg Bool.false_ne_true]
  rw [List.takeWhile_append_of_pos fun _ => isDigit_of_mem_jsonNumber, stops, List.append_nil]

theorem jsonNumber_append_inj {n m : Nat} (ends : EndsNumber text)
    (otherEnds : EndsNumber otherText)
    (same : jsonNumber n ++ text = jsonNumber m ++ otherText) : n = m ∧ text = otherText := by
  have digits : jsonNumber n = jsonNumber m := by
    rw [← takeWhile_isDigit_jsonNumber n ends, same, takeWhile_isDigit_jsonNumber m otherEnds]
  have number : n = m := by
    rw [← Nat.ofDigitChars_ten_toDigits (n := n), ← Nat.ofDigitChars_ten_toDigits (n := m)]
    exact congrArg (Nat.ofDigitChars 10 · 0) digits
  rw [digits] at same
  exact ⟨number, List.append_cancel_left same⟩

end Numbers

/-- The kinds of JSON values. -/
inductive JsonKind where
  | null
  | number
  | text
  | list
  | record
deriving DecidableEq, Repr

/-- The kind of the values that begin with a character, if any do. -/
def JsonKind.ofHead? (c : Char) : Option JsonKind :=
  if c.isDigit then some number
  else if c = 'n' then some null
  else if c = '\x22' then some text
  else if c = '[' then some list
  else if c = '\x7b' then some record
  else none

/-- The kind of a value. -/
def JsonValue.kind : JsonValue → JsonKind
  | null => .null
  | number _ => .number
  | text _ => .text
  | list _ => .list
  | record _ => .record

/-- Whether an element is told by any text that begins with it, and so is what stands behind it, if
    no digit stands there. -/
def TellsItself {α : Type} (write : α → List Char) (one : α) : Prop :=
  ∀ (other : α) (behind otherBehind : List Char), EndsNumber behind → EndsNumber otherBehind →
    write one ++ behind = write other ++ otherBehind → one = other ∧ behind = otherBehind

/-! ### Elements between brackets -/

section Brackets

variable {α : Type} {write : α → List Char} {closing : Char} {one other : List α}
variable {behind otherBehind : List Char}

theorem endsNumber_moreElements (noDigit : closing.isDigit = false) (elements : List α)
    (behind : List Char) :
    EndsNumber (elements.flatMap (fun element => ',' :: write element) ++ closing :: behind) := by
  cases elements with
  | nil =>
      exact endsNumber_cons noDigit
  | cons element rest =>
      exact endsNumber_cons (by decide)

/-- Elements behind commas are told by the text up to the closing bracket. -/
theorem moreElements_append_inj (noComma : closing ≠ ',') (noDigit : closing.isDigit = false)
    (tells : ∀ element ∈ one, TellsItself write element)
    (same : one.flatMap (fun element => ',' :: write element) ++ closing :: behind =
      other.flatMap (fun element => ',' :: write element) ++ closing :: otherBehind) :
    one = other ∧ behind = otherBehind := by
  induction one generalizing other with
  | nil =>
      cases other with
      | nil =>
          exact ⟨rfl, List.tail_eq_of_cons_eq same⟩
      | cons element rest =>
          exact absurd (List.head_eq_of_cons_eq same) noComma
  | cons element rest ih =>
      rw [List.forall_mem_cons] at tells
      cases other with
      | nil =>
          exact absurd (List.head_eq_of_cons_eq same).symm noComma
      | cons otherElement otherRest =>
          rw [List.flatMap_cons, List.flatMap_cons, List.append_assoc, List.append_assoc] at same
          obtain ⟨rfl, more⟩ := tells.1 otherElement _ _ (endsNumber_moreElements noDigit rest _)
            (endsNumber_moreElements noDigit otherRest _) (List.tail_eq_of_cons_eq same)
          obtain ⟨rfl, closed⟩ := ih tells.2 more
          exact ⟨rfl, closed⟩

/-- So are elements between brackets, if none begins like the closing bracket. -/
theorem bracketed_append_inj {opening : Char} {level : Nat} (noComma : closing ≠ ',')
    (noDigit : closing.isDigit = false)
    (foreign : ∀ element text rest, write element ++ text ≠ closing :: rest)
    (tells : ∀ element ∈ one, TellsItself write element)
    (same : bracketed (fun _ => []) level opening closing (one.map write) ++ behind =
      bracketed (fun _ => []) level opening closing (other.map write) ++ otherBehind) :
    one = other ∧ behind = otherBehind := by
  have written (first : α) (rest : List α) (text : List Char) :
      bracketed (fun _ => []) level opening closing ((first :: rest).map write) ++ text =
        opening :: (write first ++
          (rest.flatMap (fun element => ',' :: write element) ++ closing :: text)) := by
    simp [bracketed, List.flatMap_map]
  cases one with
  | nil =>
      cases other with
      | nil =>
          exact ⟨rfl, List.append_cancel_left same⟩
      | cons first rest =>
          rw [written] at same
          exact absurd (List.tail_eq_of_cons_eq same).symm (foreign first _ _)
  | cons first rest =>
      rw [written] at same
      cases other with
      | nil =>
          exact absurd (List.tail_eq_of_cons_eq same) (foreign first _ _)
      | cons otherFirst otherRest =>
          rw [written] at same
          -- With a comma in front of both texts the first elements stand there like the others.
          exact moreElements_append_inj noComma noDigit tells
            (by simpa using List.tail_eq_of_cons_eq same)

end Brackets

/-! ### Values -/

section Values

variable {character : Char → List Char} {write : Nat → JsonValue → List Char} {level : Nat}
variable {behind otherBehind : List Char}

/-- The first character of a value tells its kind. -/
theorem WritesJson.head?_write (writes : WritesJson character (fun _ => []) [':'] write)
    (level : Nat) (value : JsonValue) (behind : List Char) :
    ∃ c, (write level value ++ behind).head? = some c ∧
      JsonKind.ofHead? c = some value.kind := by
  have opened (opening closing : Char) (elements : List (List Char)) :
      (bracketed (fun _ => []) level opening closing elements ++ behind).head? =
        some opening := by
    cases elements <;> rfl
  cases value with
  | null =>
      exact ⟨'n', by rw [writes.null]; rfl, rfl⟩
  | number n =>
      rw [writes.number]
      cases digits : jsonNumber n with
      | nil =>
          exact absurd digits Nat.toDigits_ne_nil
      | cons d rest =>
          have digit : d.isDigit = true := isDigit_of_mem_jsonNumber (n := n) (by simp [digits])
          exact ⟨d, rfl, if_pos digit⟩
  | text content =>
      exact ⟨'\x22', by rw [writes.text]; rfl, rfl⟩
  | list items =>
      exact ⟨'[', by rw [writes.list, opened], rfl⟩
  | record fields =>
      exact ⟨'\x7b', by rw [writes.record, opened], rfl⟩

theorem WritesJson.kind_eq_of_append (writes : WritesJson character (fun _ => []) [':'] write)
    {one other : JsonValue}
    (same : write level one ++ behind = write level other ++ otherBehind) :
    one.kind = other.kind := by
  obtain ⟨c, head, ofHead⟩ := writes.head?_write level one behind
  obtain ⟨d, otherHead, ofOtherHead⟩ := writes.head?_write level other otherBehind
  obtain rfl : c = d := Option.some.inj (by rw [← head, same, otherHead])
  exact Option.some.inj (by rw [← ofHead, ofOtherHead])

/-- No value begins like the end of a list. -/
theorem WritesJson.append_ne_cons (writes : WritesJson character (fun _ => []) [':'] write)
    {c : Char} (value : JsonValue) (foreign : JsonKind.ofHead? c = none) :
    write level value ++ behind ≠ c :: otherBehind := by
  intro same
  obtain ⟨d, head, ofHead⟩ := writes.head?_write level value behind
  obtain rfl : c = d := Option.some.inj (by rw [← head, same]; rfl)
  exact Option.some_ne_none _ (ofHead.symm.trans foreign)

/-- A field is told by a text that begins with it if its value is. -/
theorem EscapesJson.tellsItself_field (escapes : EscapesJson character)
    {write : JsonValue → List Char} {field : String × JsonValue}
    (tells : TellsItself write field.2) :
    TellsItself (fun field => quoted character field.1 ++ [':'] ++ write field.2) field := by
  intro other behind otherBehind ends otherEnds same
  simp only [List.append_assoc, List.cons_append, List.nil_append] at same
  obtain ⟨key, rest⟩ := escapes.quoted_append_inj same
  obtain ⟨value, closed⟩ := tells other.2 behind otherBehind ends otherEnds
    (List.tail_eq_of_cons_eq rest)
  exact ⟨Prod.ext key value, closed⟩

/-- Two values that begin one text are equal, and the text goes on alike behind them. -/
theorem WritesJson.tellsItself (writes : WritesJson character (fun _ => []) [':'] write)
    (value : JsonValue) : ∀ level, TellsItself (write level) value := by
  induction value using JsonValue.induction with
  | null =>
      intro level other behind otherBehind _ _ same
      cases other with
      | null =>
          exact ⟨rfl, List.append_cancel_left same⟩
      | _ =>
          exact JsonKind.noConfusion (writes.kind_eq_of_append same)
  | number n =>
      intro level other behind otherBehind ends otherEnds same
      cases other with
      | number m =>
          rw [writes.number, writes.number] at same
          obtain ⟨rfl, rest⟩ := jsonNumber_append_inj ends otherEnds same
          exact ⟨rfl, rest⟩
      | _ =>
          exact JsonKind.noConfusion (writes.kind_eq_of_append same)
  | text content =>
      intro level other behind otherBehind _ _ same
      cases other with
      | text otherContent =>
          rw [writes.text, writes.text] at same
          obtain ⟨rfl, rest⟩ := writes.escapes.quoted_append_inj same
          exact ⟨rfl, rest⟩
      | _ =>
          exact JsonKind.noConfusion (writes.kind_eq_of_append same)
  | list items ih =>
      intro level other behind otherBehind _ _ same
      cases other with
      | list otherItems =>
          rw [writes.list, writes.list] at same
          obtain ⟨rfl, rest⟩ := bracketed_append_inj (by decide) (by decide)
            (fun item _ _ => writes.append_ne_cons item rfl)
            (fun item member => ih item member (level + 1)) same
          exact ⟨rfl, rest⟩
      | _ =>
          exact JsonKind.noConfusion (writes.kind_eq_of_append same)
  | record fields ih =>
      intro level other behind otherBehind _ _ same
      cases other with
      | record otherFields =>
          rw [writes.record, writes.record] at same
          obtain ⟨rfl, rest⟩ := bracketed_append_inj (by decide) (by decide)
            (fun _ _ _ begun => absurd (List.head_eq_of_cons_eq begun) (by decide))
            (fun field member => writes.escapes.tellsItself_field (ih field member (level + 1)))
            same
          exact ⟨rfl, rest⟩
      | _ =>
          exact JsonKind.noConfusion (writes.kind_eq_of_append same)

end Values

namespace JsonValue

/-- The compact layout determines the value. -/
theorem compact_inj {one other : JsonValue} (same : one.compact = other.compact) : one = other :=
  (writesJson_compact.tellsItself one 0 other [] [] endsNumber_nil endsNumber_nil
    (congrArg (· ++ []) same)).1

/-- So does the indented layout, of which the compact one is left without its blanks. -/
theorem render_inj {pretty : Bool} {one other : JsonValue}
    (same : one.render pretty = other.render pretty) : one = other := by
  have compactTexts : (one.render false).toList = (other.render false).toList := by
    cases pretty with
    | false =>
        rw [same]
    | true =>
        rw [← withoutLayout_render, same, withoutLayout_render]
  simpa [render] using compact_inj (by simpa [render] using compactTexts)

theorem optionalText_inj {one other : Option String}
    (same : optionalText one = optionalText other) : one = other := by
  cases one with
  | none =>
      cases other with
      | none =>
          rfl
      | some content =>
          exact JsonValue.noConfusion same
  | some content =>
      cases other with
      | none =>
          exact JsonValue.noConfusion same
      | some otherContent =>
          rw [JsonValue.text.inj same]

end JsonValue

/-! ### Records of the report -/

section Records

/-- The record of an edge tells a missing target from an empty one, and a dataset from a file. -/
theorem Edge.json_inj {one other : Edge} (same : one.json = other.json) : one = other := by
  obtain ⟨target, source, origin⟩ := one
  obtain ⟨otherTarget, otherSource, otherOrigin⟩ := other
  simp only [Edge.json, JsonValue.record.injEq, List.cons.injEq, Prod.mk.injEq,
    JsonValue.text.injEq, true_and, and_true] at same
  obtain ⟨targets, datasets, files, rfl⟩ := same
  obtain rfl := JsonValue.optionalText_inj targets
  have datasets := JsonValue.optionalText_inj datasets
  have files := JsonValue.optionalText_inj files
  cases source with
  | dataset name =>
      cases otherSource with
      | dataset otherName =>
          rw [Option.some.inj datasets]
      | file path =>
          exact absurd datasets (Option.some_ne_none _)
  | file path =>
      cases otherSource with
      | dataset name =>
          exact absurd datasets.symm (Option.some_ne_none _)
      | file otherPath =>
          rw [Option.some.inj files]

theorem Node.json_inj {one other : Node} (same : one.json = other.json) : one = other := by
  cases one <;> cases other <;> simp_all [Node.json, Node.name]

theorem Cycle.json_inj {one other : Cycle} (same : one.json = other.json) : one = other := by
  obtain ⟨nodes⟩ := one
  obtain ⟨otherNodes⟩ := other
  simp only [Cycle.json, JsonValue.record.injEq, List.cons.injEq, Prod.mk.injEq,
    JsonValue.list.injEq, true_and, and_true] at same
  rw [(List.map_inj_right fun _ _ => Node.json_inj).mp same]

theorem WarningKind.name_inj {one other : WarningKind} (same : one.name = other.name) :
    one = other := by
  revert same
  cases one <;> cases other <;> decide

theorem Warning.json_inj {one other : Warning} (same : one.json = other.json) : one = other := by
  obtain ⟨file, ⟨line, column⟩, kind, message⟩ := one
  obtain ⟨otherFile, ⟨otherLine, otherColumn⟩, otherKind, otherMessage⟩ := other
  simp only [Warning.json, JsonValue.record.injEq, List.cons.injEq, Prod.mk.injEq,
    JsonValue.text.injEq, JsonValue.number.injEq, true_and, and_true] at same
  obtain ⟨rfl, rfl, rfl, kinds, rfl⟩ := same
  rw [WarningKind.name_inj kinds]

end Records

namespace Extraction

/-- Whether two extractions have equal edges, warnings and cycles. -/
structure SameReport (one other : Extraction) : Prop where
  edges : one.edges = other.edges
  warnings : one.warnings = other.warnings
  cycles : one.graph.cycles = other.graph.cycles

theorem json_eq_iff {one other : Extraction} : one.json = other.json ↔ SameReport one other := by
  simp only [json, JsonValue.record.injEq, List.cons.injEq, Prod.mk.injEq, JsonValue.list.injEq,
    true_and, and_true]
  rw [List.map_inj_right fun _ _ => Edge.json_inj, List.map_inj_right fun _ _ => Warning.json_inj,
    List.map_inj_right fun _ _ => Cycle.json_inj]
  exact ⟨fun ⟨edges, warnings, cycles⟩ => ⟨edges, warnings, cycles⟩,
    fun ⟨edges, warnings, cycles⟩ => ⟨edges, warnings, cycles⟩⟩

/-- The report in JSON is one text up to the blanks outside of string literals, and in each layout
    two extractions have one report if and only if they have equal edges, warnings and cycles. -/
theorem jsonReport_layouts (one other : Extraction) :
    withoutLayout .outside (one.render .json true).toList = (one.render .json false).toList ∧
      ∀ pretty, one.render .json pretty = other.render .json pretty ↔ SameReport one other := by
  refine ⟨JsonValue.withoutLayout_render one.json, fun pretty => ?_⟩
  rw [← json_eq_iff]
  exact ⟨JsonValue.render_inj, fun same => congrArg (JsonValue.render pretty) same⟩

end Extraction

end DatasetLineage
