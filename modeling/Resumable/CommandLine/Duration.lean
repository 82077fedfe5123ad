/-! Text of a span of time. -/

namespace Resumable.CommandLine

def padded (width n : Nat) : String :=
  let digits := toString n
  String.ofList (List.replicate (width - digits.length) '0') ++ digits

def fixed (places n : Nat) : String :=
  let part := ((padded places (n % Nat.pow 10 places)).toList.reverse.dropWhile (· = '0')).reverse
  toString (n / Nat.pow 10 places) ++ if part.isEmpty then "" else "." ++ String.ofList part

def duration (nanoseconds : Nat) : String :=
  if Nat.pow 10 9 ≤ nanoseconds then fixed 9 nanoseconds ++ "s"
  else if Nat.pow 10 6 ≤ nanoseconds then fixed 6 nanoseconds ++ "ms"
  else if Nat.pow 10 3 ≤ nanoseconds then fixed 3 nanoseconds ++ "µs"
  else toString nanoseconds ++ "ns"

end Resumable.CommandLine
