/-
Module: DatasetLineage.Proofs.LowercaseForms
Purpose: Lower case is reached in one step: a text in lower case is its own lower case. No run of
  the table moves a code point that is an image of a run, which is seen run by run, and neither
  form of the sigma nor the parts of `İ` are moved. No image is in front of `a`, so what stands
  there in a text in lower case has stood there before.
Main exports: Text.CaseRun.exists_of_image?, Text.CaseRun.misses, Text.IsFixed,
  Text.lowercase_lowercase, Text.mem_of_mem_lowercase
-/
import DatasetLineage.Text.Lowercase

namespace DatasetLineage.Text

namespace CaseRun

/-- A code point that is moved is moved by one of the runs. -/
theorem exists_of_image? {runs : List CaseRun} {n m : Nat} (moved : image? runs n = some m) :
    ∃ run ∈ runs, (run.first ≤ n ∧ n ≤ run.last) ∧ (n - run.first) % run.step = 0 ∧
      run.image + (n - run.first) = m := by
  induction runs with
  | nil =>
      cases moved
  | cons run rest ih =>
      unfold image? at moved
      by_cases below : n < run.first
      · rw [if_pos below] at moved
        cases moved
      · rw [if_neg below] at moved
        by_cases inside : n ≤ run.last
        · rw [if_pos inside] at moved
          by_cases onStep : (n - run.first) % run.step = 0
          · rw [if_pos onStep] at moved
            cases moved
            exact ⟨run, List.mem_cons_self, ⟨Nat.le_of_not_lt below, inside⟩, onStep, rfl⟩
          · rw [if_neg onStep] at moved
            cases moved
        · rw [if_neg inside] at moved
          obtain ⟨other, listed, found⟩ := ih moved
          exact ⟨other, List.mem_cons_of_mem _ listed, found⟩

/-- Whether no image of a run is moved by another run: their intervals do not meet, or the images
    are of one parity and the other run moves the other one. -/
def misses (run other : CaseRun) : Bool :=
  other.last.blt run.image || (run.image + (run.last - run.first)).blt other.first ||
    (other.step.beq 2 && ((run.image + other.first) % 2).beq 1 &&
      (run.step.beq 2 || run.first.beq run.last))

theorem not_moved_of_misses {run other : CaseRun} (apart : run.misses other = true) {n : Nat}
    (inside : run.first ≤ n ∧ n ≤ run.last) (onStep : (n - run.first) % run.step = 0)
    (inside' : other.first ≤ run.image + (n - run.first) ∧
      run.image + (n - run.first) ≤ other.last)
    (onStep' : (run.image + (n - run.first) - other.first) % other.step = 0) : False := by
  simp only [misses, Bool.or_eq_true, Bool.and_eq_true, Nat.blt_eq, Nat.beq_eq] at apart
  rcases apart with (below | above) | ⟨⟨byTwo, odd⟩, parity⟩
  · omega
  · omega
  · rw [byTwo] at onStep'
    rcases parity with byTwo' | single
    · rw [byTwo'] at onStep
      omega
    · omega

end CaseRun

/-- No run moves an image of a run. -/
theorem lowercaseRuns_miss :
    (lowercaseRuns.all fun run => lowercaseRuns.all fun other => run.misses other) = true := by
  decide +kernel

/-- Images are characters, and none of them is `İ`. -/
theorem lowercaseRuns_images :
    (lowercaseRuns.all fun run => run.misses ⟨0x130, 0x130, 1, 0⟩ &&
      ((run.image + (run.last - run.first)).blt 0xD800 ||
        (Nat.blt 0xDFFF run.image && (run.image + (run.last - run.first)).blt 0x110000))) =
      true := by
  decide +kernel

/-- Whether lower case keeps a character wherever it stands. -/
def IsFixed (c : Char) : Prop := c ≠ 'Σ' ∧ lowercaseForm c = [c]

theorem image?_image {n m : Nat} (moved : CaseRun.image? lowercaseRuns n = some m) :
    CaseRun.image? lowercaseRuns m = none := by
  obtain ⟨run, listed, inside, onStep, rfl⟩ := CaseRun.exists_of_image? moved
  cases again : CaseRun.image? lowercaseRuns (run.image + (n - run.first)) with
  | none =>
      rfl
  | some l =>
      obtain ⟨other, listed', inside', onStep', _⟩ := CaseRun.exists_of_image? again
      have apart := List.all_eq_true.mp (List.all_eq_true.mp lowercaseRuns_miss run listed)
        other listed'
      exact (CaseRun.not_moved_of_misses apart inside onStep inside' onStep').elim

/-- An image is the code point of a character, and not that of `İ`. -/
theorem toNat_image? {n m : Nat} (moved : CaseRun.image? lowercaseRuns n = some m) :
    (Char.ofNat m).toNat = m ∧ m ≠ 0x130 := by
  obtain ⟨run, listed, inside, onStep, place⟩ := CaseRun.exists_of_image? moved
  have known := List.all_eq_true.mp lowercaseRuns_images run listed
  rw [Bool.and_eq_true] at known
  obtain ⟨noDot, valid⟩ := known
  simp only [Bool.or_eq_true, Bool.and_eq_true, Nat.blt_eq] at valid
  have isValid : m.isValidChar := by
    unfold Nat.isValidChar
    omega
  constructor
  · rw [Char.ofNat, dif_pos isValid]
    rfl
  · intro dotted
    apply CaseRun.not_moved_of_misses noDot inside onStep
    · rw [place, dotted]
      exact ⟨Nat.le_refl _, Nat.le_refl _⟩
    · rw [place, dotted]
      rfl

theorem isFixed_of_image? {n m : Nat} (moved : CaseRun.image? lowercaseRuns n = some m) :
    IsFixed (Char.ofNat m) := by
  have still := image?_image moved
  obtain ⟨toNat, noDot⟩ := toNat_image? moved
  have notDotted : Char.ofNat m ≠ 'İ' := by
    intro same
    exact noDot (toNat.symm.trans (congrArg Char.toNat same))
  constructor
  · intro same
    have sigma : m = 0x3A3 := toNat.symm.trans (congrArg Char.toNat same)
    rw [sigma] at still
    exact absurd still (by decide +kernel)
  · rw [lowercaseForm, if_neg notDotted, toNat, still]

/-- The lower case form of a character consists of characters that lower case keeps. -/
theorem isFixed_of_mem_lowercaseForm {c d : Char} (notSigma : c ≠ 'Σ')
    (member : d ∈ lowercaseForm c) : IsFixed d := by
  unfold lowercaseForm at member
  by_cases dotted : c = 'İ'
  · rw [if_pos dotted] at member
    rcases List.mem_cons.mp member with rfl | member
    · exact ⟨by decide, by decide +kernel⟩
    · rw [List.mem_singleton] at member
      subst member
      exact ⟨by decide, by decide +kernel⟩
  · rw [if_neg dotted] at member
    cases moved : CaseRun.image? lowercaseRuns c.toNat with
    | some image =>
        rw [moved, List.mem_singleton] at member
        exact member ▸ isFixed_of_image? moved
    | none =>
        rw [moved, List.mem_singleton] at member
        subst member
        refine ⟨notSigma, ?_⟩
        rw [lowercaseForm, if_neg dotted, moved]

theorem isFixed_of_mem_lowercaseFrom {afterCased : Bool} {text : List Char} {d : Char}
    (member : d ∈ lowercaseFrom afterCased text) : IsFixed d := by
  induction text generalizing afterCased with
  | nil =>
      cases member
  | cons c rest ih =>
      unfold lowercaseFrom at member
      rcases List.mem_append.mp member with inForm | later
      · by_cases sigma : c = 'Σ'
        · rw [if_pos sigma, List.mem_singleton] at inForm
          subst inForm
          split
          · exact ⟨by decide, by decide +kernel⟩
          · exact ⟨by decide, by decide +kernel⟩
        · rw [if_neg sigma] at inForm
          exact isFixed_of_mem_lowercaseForm sigma inForm
      · exact ih later

theorem lowercaseFrom_of_isFixed {afterCased : Bool} {text : List Char}
    (fixed : ∀ c ∈ text, IsFixed c) : lowercaseFrom afterCased text = text := by
  induction text generalizing afterCased with
  | nil =>
      rfl
  | cons c rest ih =>
      rw [List.forall_mem_cons] at fixed
      rw [lowercaseFrom, if_neg fixed.1.1, fixed.1.2, ih fixed.2, List.singleton_append]

/-- A text in lower case is its own lower case. -/
@[simp] theorem lowercase_lowercase (text : String) :
    lowercase (lowercase text) = lowercase text := by
  have fixed : ∀ c ∈ lowercaseFrom false text.toList, IsFixed c := fun c member =>
    isFixed_of_mem_lowercaseFrom member
  unfold lowercase
  rw [String.toList_ofList, lowercaseFrom_of_isFixed fixed]

/-- No image is in front of `a`. -/
theorem le_of_image? {n m : Nat} (moved : CaseRun.image? lowercaseRuns n = some m) :
    0x61 ≤ m := by
  have all : (lowercaseRuns.all fun run => Nat.ble 0x61 run.image) = true := by decide +kernel
  obtain ⟨run, listed, _, _, rfl⟩ := CaseRun.exists_of_image? moved
  have least := Nat.le_of_ble_eq_true (List.all_eq_true.mp all run listed)
  omega

theorem eq_of_mem_lowercaseForm {c d : Char} (low : d.toNat < 0x61)
    (member : d ∈ lowercaseForm c) : d = c := by
  unfold lowercaseForm at member
  by_cases dotted : c = 'İ'
  · rw [if_pos dotted] at member
    rcases List.mem_cons.mp member with rfl | member
    · exact absurd low (by decide)
    · rw [List.mem_singleton] at member
      subst member
      exact absurd low (by decide)
  · rw [if_neg dotted] at member
    cases moved : CaseRun.image? lowercaseRuns c.toNat with
    | some image =>
        rw [moved, List.mem_singleton] at member
        rw [member, (toNat_image? moved).1] at low
        have least := le_of_image? moved
        omega
    | none =>
        rw [moved, List.mem_singleton] at member
        exact member

theorem mem_of_mem_lowercaseFrom {afterCased : Bool} {text : List Char} {d : Char}
    (low : d.toNat < 0x61) (member : d ∈ lowercaseFrom afterCased text) : d ∈ text := by
  induction text generalizing afterCased with
  | nil =>
      cases member
  | cons c rest ih =>
      unfold lowercaseFrom at member
      rcases List.mem_append.mp member with inForm | later
      · by_cases sigma : c = 'Σ'
        · rw [if_pos sigma, List.mem_singleton] at inForm
          subst inForm
          split at low
          · exact absurd low (by decide)
          · exact absurd low (by decide)
        · rw [if_neg sigma] at inForm
          exact eq_of_mem_lowercaseForm low inForm ▸ List.mem_cons_self
      · exact List.mem_cons_of_mem c (ih later)

/-- Characters in front of `a` are in the lower case of a text only if they are in the text. -/
theorem mem_of_mem_lowercase {text : String} {d : Char} (low : d.toNat < 0x61)
    (member : d ∈ (lowercase text).toList) : d ∈ text.toList := by
  rw [lowercase, String.toList_ofList] at member
  exact mem_of_mem_lowercaseFrom low member

end DatasetLineage.Text
