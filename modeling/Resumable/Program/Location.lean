/-! Places in source text. -/

namespace Resumable

/-- An integer as a 32-bit word. There is none beyond the words; a step that leads there stops the
program. -/
def word? (n : Int) : Option Int32 :=
  if inside : Int32.minValue.toInt ≤ n ∧ n ≤ Int32.maxValue.toInt then
    some (.ofIntLE n inside.1 inside.2)
  else none

/-- Lines and columns are 32-bit words and count from zero. -/
structure Position where
  line : Int32 := 0
  column : Int32 := 0
  deriving DecidableEq, Inhabited

/-- A range of a source file. The empty scope stands for text that came from no file. -/
structure Location where
  scope : String := ""
  start : Position := {}
  stop : Position := {}
  deriving DecidableEq, Inhabited

namespace Location

def unknown : Location := {}

/-- A whole line. The last column is wide enough for any line that is shown. -/
def wholeLine (line : Int32) : Location := ⟨"", ⟨line, 0⟩, ⟨line, 120⟩⟩

def shownLine? (location : Location) : Option Int32 := word? (location.start.line.toInt + 1)

end Location
end Resumable
