/-! # Spans and points of time

Durations are counted in nanoseconds and printed exactly, in the largest unit in
which they have a whole part. A point of time is placed by its distance from the
epoch; log lines show its whole seconds.
-/

namespace ChainVariables

/-- A span of time in nanoseconds. -/
structure Duration where
  nanos : Nat
  deriving DecidableEq, Repr

namespace Duration

def second : Nat := 1000000000

def millisecond : Nat := 1000000

def microsecond : Nat := 1000

/-- A number with the decimal point before the last so many digits, without trailing zeros after
the point. -/
def decimal (number places : Nat) : String :=
  let digits := (Nat.toDigits 10 number).leftpad (places + 1) '0'
  let whole := digits.take (digits.length - places)
  match ((digits.drop (digits.length - places)).reverse.dropWhile (· == '0')).reverse with
  | [] => String.ofList whole
  | fraction => String.ofList (whole ++ '.' :: fraction)

/-- The duration in the largest unit in which it has a whole part: `1.5s`, `250.000001ms`, `1µs`
or `0ns`. -/
def text (duration : Duration) : String :=
  if second ≤ duration.nanos then decimal duration.nanos 9 ++ "s"
  else if millisecond ≤ duration.nanos then decimal duration.nanos 6 ++ "ms"
  else if microsecond ≤ duration.nanos then decimal duration.nanos 3 ++ "µs"
  else duration.nanos.repr ++ "ns"

example : text ⟨1500000000⟩ = "1.5s" := by decide
example : text ⟨250000001⟩ = "250.000001ms" := by decide
example : text ⟨1000⟩ = "1µs" := by decide
example : text ⟨0⟩ = "0ns" := by decide

end Duration

/-- A point of time, in nanoseconds after the epoch or, if negative, before it. -/
structure Timestamp where
  nanos : Int
  deriving DecidableEq, Repr

namespace Timestamp

/-- The whole seconds since the epoch; 0 before it. -/
def seconds (time : Timestamp) : Nat := (time.nanos / Duration.second).toNat

theorem seconds_eq_zero_of_neg {time : Timestamp} (before : time.nanos < 0) :
    time.seconds = 0 := by
  unfold seconds Duration.second
  omega

end Timestamp

end ChainVariables
