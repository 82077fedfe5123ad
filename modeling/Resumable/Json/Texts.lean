import Resumable.Json.Basic

/-! Text of JSON values. Another library writes and reads it, so that files are read and written with
whatever texts are given. -/

namespace Resumable.Json

/-- How values are written, on one line or with a line for each item, and how text is read: as the
value it begins with, and the line of what stands behind that, if more than blanks do. Where no value
begins, the answer is the line on which that is seen. Lines count from zero. -/
structure Texts where
  compact : Json → String
  pretty : Json → String
  read : String → Except Nat (Json × Option Nat)

/-- Lists and objects of a file may be nested this deep. -/
def fileLevels : Nat := 127

end Resumable.Json
