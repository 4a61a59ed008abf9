/-!
# Durations

A duration is written in the largest unit that makes it at least one, with two places.
-/

namespace LuaLite.CommandLine

/-- A number of hundredths with two places behind the point. -/
def hundredths (n : Nat) : String :=
  toString (n / 100) ++ "." ++ toString (n / 10 % 10) ++ toString (n % 10)

/-- The text of a duration in nanoseconds; what is over a hundredth of a unit is rounded. -/
def durationText (nanoseconds : Nat) : String :=
  let rounded (unit : Nat) := (nanoseconds * 100 + unit / 2) / unit
  if 1000000000 ≤ nanoseconds then hundredths (rounded 1000000000) ++ "s"
  else if 1000000 ≤ nanoseconds then hundredths (rounded 1000000) ++ "ms"
  else if 1000 ≤ nanoseconds then hundredths (rounded 1000) ++ "µs"
  else hundredths (rounded 1) ++ "ns"

end LuaLite.CommandLine
