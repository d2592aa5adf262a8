import StickArbiter.Time

/-!
# How a span is written

A span is written in the largest unit of which it holds at least one, with as many decimal places
as it needs and none more: `1.5s`, `500ms`, `250µs`, `0ns`.
-/

namespace StickArbiter.Span

/-- Decimal places of `part` out of `10 ^ places`, without trailing zeros; empty for zero. -/
def fractionDigits (places part : Nat) : List Char :=
  let digits := Nat.toDigits 10 part
  let padded := List.replicate (places - digits.length) '0' ++ digits
  (padded.reverse.dropWhile (· = '0')).reverse

/-- A whole number of units and `part` of `10 ^ places` more. -/
def unitText (whole places part : Nat) (unit : String) : String :=
  let fraction := if part = 0 then [] else '.' :: fractionDigits places part
  toString whole ++ String.ofList fraction ++ unit

def text (d : Span) : String :=
  if d.nanos ≥ 1000000000 then unitText d.seconds 9 d.subsecond "s"
  else if d.nanos ≥ 1000000 then unitText (d.nanos / 1000000) 6 (d.nanos % 1000000) "ms"
  else if d.nanos ≥ 1000 then unitText (d.nanos / 1000) 3 (d.nanos % 1000) "µs"
  else unitText d.nanos 0 0 "ns"

example : text (.ofSeconds 1 500000000) = "1.5s" := by decide +kernel

example : text (.ofSeconds 1 1) = "1.000000001s" := by decide +kernel

example : text (.ofMicros 250) = "250µs" := by decide +kernel

end StickArbiter.Span
