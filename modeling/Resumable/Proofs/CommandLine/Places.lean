import Mathlib
import Resumable.CommandLine.Report

/-! The numbers that are shown of a place: its line and the marks below it. They are computed in
words. A step that leaves the words stops the program; where none does they are exact. -/

namespace Resumable

def IsWord (n : Int) : Prop := Int32.minValue.toInt ≤ n ∧ n ≤ Int32.maxValue.toInt

theorem word?_cases (n : Int) :
    (IsWord n ∧ ∃ w, word? n = some w ∧ w.toInt = n) ∨ (¬IsWord n ∧ word? n = none) := by
  by_cases inside : IsWord n
  · exact .inl ⟨inside, .ofIntLE n inside.1 inside.2, dif_pos inside, Int32.toInt_ofIntLE⟩
  · exact .inr ⟨inside, dif_neg inside⟩

namespace Location

/-- Lines are counted from one where they are shown. -/
def lineNumber (location : Location) : Int := location.start.line.toInt + 1

def ahead (location : Location) : Int := location.start.column.toInt - 1

/-- How far a range reaches behind its first column. It may be inverted. -/
def reach (location : Location) : Int := location.stop.column.toInt - location.start.column.toInt

/-- Both steps to the number of marks stay in the words: the range isn't too much inverted, and is
shorter than the greatest word. -/
def Measurable (location : Location) : Prop :=
  Int32.minValue.toInt ≤ location.reach ∧ location.reach < Int32.maxValue.toInt

instance (location : Location) : Decidable location.Measurable :=
  inferInstanceAs (Decidable (_ ∧ _))

variable {location : Location}

theorem isWord_lineNumber :
    IsWord location.lineNumber ↔ location.start.line ≠ Int32.maxValue := by
  have least := location.start.line.minValue_le_toInt
  have most := location.start.line.toInt_le
  rw [Ne, ← Int32.toInt_inj, IsWord, lineNumber]
  omega

theorem isWord_ahead : IsWord location.ahead ↔ location.start.column ≠ Int32.minValue := by
  have least := location.start.column.minValue_le_toInt
  have most := location.start.column.toInt_le
  rw [Ne, ← Int32.toInt_inj, IsWord, ahead]
  omega

theorem measurable_iff :
    location.Measurable ↔ IsWord location.reach ∧ IsWord (location.reach + 1) := by
  unfold Measurable IsWord
  omega

end Location

theorem Diagnostic.text?_eq (d : Diagnostic) : d.text? =
    if d.location.start.line ≠ Int32.maxValue then
      some (d.kind.title ++ " (line " ++ toString d.location.lineNumber ++ "): " ++ d.message)
    else none := by
  unfold text? Location.shownLine?
  obtain ⟨inside, line, found, exact_⟩ | ⟨outside, found⟩ := word?_cases d.location.lineNumber
  · rw [if_pos (Location.isWord_lineNumber.mp inside), ← exact_]
    exact congrArg _ found
  · rw [if_neg (mt Location.isWord_lineNumber.mpr outside)]
    exact congrArg _ found

namespace CommandLine

theorem printWarning_eq (w : Warning) : printWarning w =
    if w.location.start.line ≠ Int32.maxValue then
      { lines := ["WARNING: Line " ++ toString w.location.lineNumber, w.cause.text] }
    else { stopped := some "" } := by
  obtain ⟨inside, line, found, exact_⟩ | ⟨outside, found⟩ := word?_cases w.location.lineNumber
  · have shown : w.location.shownLine? = some line := found
    rw [if_pos (Location.isWord_lineNumber.mp inside), ← exact_, printWarning, shown]
  · have shown : w.location.shownLine? = none := found
    rw [if_neg (mt Location.isWord_lineNumber.mpr outside), printWarning, shown]

theorem caretOffset?_eq (location : Location) : caretOffset? location =
    if location.start.column ≠ Int32.minValue then some location.ahead.toNat else none := by
  obtain ⟨inside, ahead, found, exact_⟩ | ⟨outside, found⟩ := word?_cases location.ahead
  · rw [if_pos (Location.isWord_ahead.mp inside), ← exact_]
    exact congrArg _ found
  · rw [if_neg (mt Location.isWord_ahead.mpr outside)]
    exact congrArg _ found

theorem caretCount?_eq (location : Location) : caretCount? location =
    if location.Measurable then some (max 1 (location.reach + 1).toNat) else none := by
  have steps : caretCount? location = (word? location.reach).bind fun reach =>
    (word? (reach.toInt + 1)).bind fun marks => some (max 1 marks.toInt.toNat) := rfl
  rw [steps]
  obtain ⟨first, reach, found, exact_⟩ | ⟨outside, found⟩ := word?_cases location.reach
  · obtain ⟨second, marks, next, count⟩ | ⟨outside, next⟩ := word?_cases (location.reach + 1)
    · rw [if_pos (Location.measurable_iff.mpr ⟨first, second⟩), found, Option.bind_some, exact_,
        next, Option.bind_some, count]
    · rw [if_neg fun both => outside (Location.measurable_iff.mp both).2, found, Option.bind_some,
        exact_, next, Option.bind_none]
  · rw [if_neg fun both => outside (Location.measurable_iff.mp both).1, found, Option.bind_none]

theorem excerpt_eq (location : Location) (line : String) : excerpt location line =
    if line = "" then {}
    else if location.start.column = Int32.minValue then
      { lines := ["\n" ++ line], stopped := some "" }
    else if location.Measurable then
      { lines := ["\n" ++ line, repeated ' ' location.ahead.toNat ++
          repeated '^' (max 1 (location.reach + 1).toNat)] }
    else { lines := ["\n" ++ line], stopped := some (repeated ' ' location.ahead.toNat) } := by
  unfold excerpt
  simp only [String.isEmpty_iff, caretOffset?_eq, caretCount?_eq, ne_eq, ite_not]
  split_ifs <;> rfl

/-- Five columns are marked from the third on, which two columns are ahead of. -/
example : excerpt ⟨"", ⟨0, 3⟩, ⟨0, 7⟩⟩ "let x = y" = { lines := ["\nlet x = y", "  ^^^^^"] } := by
  decide +kernel

theorem Printed.stopped_andThen {first second : Printed} :
    (first.andThen second).stopped = none ↔ first.stopped = none ∧ second.stopped = none := by
  unfold andThen
  cases stopped : first.stopped <;> simp [stopped]

theorem stopped_printProblem (directory : String) (source : Option String) (d : Diagnostic) :
    (printProblem directory source d).stopped = none ↔
      d.kind = .file ∨ shownLine d.location source = "" ∨
        d.location.start.column ≠ Int32.minValue ∧ d.location.Measurable := by
  unfold printProblem
  by_cases file : d.kind = .file
  · simp [file]
  · simp only [file, if_false, Printed.stopped_andThen, excerpt_eq]
    split_ifs <;> simp [*]

/-- The line that a problem and a warning show is the one after the number that their place has. Where
that is the greatest word there is no text of a problem, and a warning stops the program before it
prints anything. Below a source line marks begin as many columns further as are ahead of the range,
and are as many as it is long, one at least. The program is stopped in front of the spaces if the
first column is the least word, and behind them if the range can't be measured in words. -/
theorem shown_exact_iff (directory : String) (source : Option String) (d : Diagnostic) (w : Warning)
    (location : Location) (line : String) :
    d.text? = (if d.location.start.line ≠ Int32.maxValue then
        some (d.kind.title ++ " (line " ++ toString d.location.lineNumber ++ "): " ++ d.message)
      else none) ∧
    printWarning w = (if w.location.start.line ≠ Int32.maxValue then
        { lines := ["WARNING: Line " ++ toString w.location.lineNumber, w.cause.text] }
      else { stopped := some "" }) ∧
    caretOffset? location = (if location.start.column ≠ Int32.minValue then
        some location.ahead.toNat else none) ∧
    caretCount? location = (if location.Measurable then
        some (max 1 (location.reach + 1).toNat) else none) ∧
    excerpt location line = (if line = "" then {}
      else if location.start.column = Int32.minValue then
        { lines := ["\n" ++ line], stopped := some "" }
      else if location.Measurable then
        { lines := ["\n" ++ line, repeated ' ' location.ahead.toNat ++
            repeated '^' (max 1 (location.reach + 1).toNat)] }
      else { lines := ["\n" ++ line], stopped := some (repeated ' ' location.ahead.toNat) }) ∧
    ((printProblem directory source d).stopped = none ↔
      d.kind = .file ∨ shownLine d.location source = "" ∨
        d.location.start.column ≠ Int32.minValue ∧ d.location.Measurable) :=
  ⟨d.text?_eq, printWarning_eq w, caretOffset?_eq location, caretCount?_eq location,
    excerpt_eq location line, stopped_printProblem directory source d⟩

end CommandLine

/-- There is no word for the line that comes after the greatest one, so that its text is never made.
-/
theorem Diagnostic.text_stops : ({ kind := .rule, message := "m"
                                   location := { start := ⟨2147483647, 0⟩ } } : Diagnostic).text? =
      none ∧
    ErrorKind.rule.title ++ " (line " ++
        toString ({ start := ⟨2147483647, 0⟩ } : Location).lineNumber ++ "): " ++ "m" =
      "Language Rule Violation (line 2147483648): m" :=
  ⟨by decide +kernel, by decide +kernel⟩

end Resumable
