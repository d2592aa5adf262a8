/-!
# Calendar

The date and the time of day at a number of milliseconds since the start of 1970, in universal time.
-/

namespace StickArbiter

structure Moment where
  /-- The date and the second, for names of files. -/
  second : String
  /-- The time in records. -/
  text : String
deriving DecidableEq

namespace Calendar

structure Date where
  year : Nat
  month : Nat
  day : Nat
deriving DecidableEq, Repr

def daysPerEra : Nat := 146097

/-- The date some days after the first of January 1970. Years are counted from the first of March,
so that a leap day comes last. -/
def Date.ofDays (days : Nat) : Date :=
  let n := days + 719468
  let era := n / daysPerEra
  let rest := n % daysPerEra
  let years := (rest - rest / 1460 + rest / 36524 - rest / 146096) / 365
  let dayOfYear := rest - (365 * years + years / 4 - years / 100)
  let m := (5 * dayOfYear + 2) / 153
  { year := era * 400 + years + (if m < 10 then 0 else 1)
    month := if m < 10 then m + 3 else m - 9
    day := dayOfYear - (153 * m + 2) / 5 + 1 }

example : Date.ofDays 0 = ⟨1970, 1, 1⟩ := by decide

example : Date.ofDays 11016 = ⟨2000, 2, 29⟩ := by decide

example : Date.ofDays 20453 = ⟨2025, 12, 31⟩ := by decide

/-- A number in at least `width` digits. -/
def padded (width n : Nat) : String :=
  let digits := Nat.toDigits 10 n
  String.ofList (List.replicate (width - digits.length) '0' ++ digits)

end Calendar

namespace Moment

open Calendar

/-- The moment some milliseconds after the start of 1970. -/
def ofMillis (n : Nat) : Moment :=
  let d := Date.ofDays (n / 86400000)
  let year := padded 4 d.year
  let month := padded 2 d.month
  let day := padded 2 d.day
  let hour := padded 2 (n / 3600000 % 24)
  let minute := padded 2 (n / 60000 % 60)
  let second := padded 2 (n / 1000 % 60)
  { second := year ++ month ++ day ++ "_" ++ hour ++ minute ++ second
    text := year ++ "-" ++ month ++ "-" ++ day ++ "T" ++ hour ++ ":" ++ minute ++ ":" ++ second
      ++ "." ++ padded 3 (n % 1000) ++ "Z" }

def date (m : Moment) : String := String.ofList (m.text.toList.take 10)

end Moment

end StickArbiter
