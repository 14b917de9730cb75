/-!
# ImpFront.Text.Duration

**Measured times in words**: in the largest of seconds, milliseconds,
microseconds and nanoseconds of which there is at least one, as a decimal without
zeros at its end.
-/

namespace ImpFront.Text

/-- A number of parts as a decimal; `places` decimal places make one whole of the parts. -/
def decimal (parts places : Nat) : String :=
  let unit := Nat.pow 10 places
  let whole := parts / unit
  let digits := Nat.toDigits 10 (parts % unit)
  let fraction := List.replicate (places - digits.length) '0' ++ digits
  let shown := (fraction.reverse.dropWhile (· = '0')).reverse
  if shown = [] then toString whole else toString whole ++ "." ++ String.ofList shown

/-- A time in nanoseconds. -/
def duration (nanoseconds : Nat) : String :=
  if 1000000000 ≤ nanoseconds then decimal nanoseconds 9 ++ "s"
  else if 1000000 ≤ nanoseconds then decimal nanoseconds 6 ++ "ms"
  else if 1000 ≤ nanoseconds then decimal nanoseconds 3 ++ "µs"
  else toString nanoseconds ++ "ns"

example : duration 1200000 = "1.2ms" := by decide

example : duration 2000000000 = "2s" := by decide

end ImpFront.Text
