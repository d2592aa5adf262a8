import StickArbiter.Fault
import StickArbiter.Text.Blank
import StickArbiter.Text.Lines
import StickArbiter.Wire.Read

/-!
# Recordings

A recording is a text with one sample on each line that is not blank. A line with a fault spoils it,
and the first such line says why.
-/

namespace StickArbiter

/-- Samples in the order in which they were recorded. -/
structure Recording where
  samples : List Sample := []
deriving DecidableEq

namespace Recording

/-- The sample on a line, or nothing where the line is blank. -/
def readLine (line : List UInt8) : Except Fault (Option Sample) :=
  match textOfBytes ⟨line.toArray⟩ with
  | .error f => .error (.io f)
  | .ok text =>
    match Text.trimmed text.toList with
    | [] => .ok none
    | cs => match Wire.readSample cs with
      | .error e => .error (.json e)
      | .ok s => .ok (some s)

/-- The samples on some lines. -/
def readLines : List (List UInt8) → Except Fault (List Sample)
  | [] => .ok []
  | l :: ls =>
    match readLine l with
    | .error f => .error f
    | .ok s? => (readLines ls).map (s?.toList ++ ·)

def ofBytes (bytes : List UInt8) : Except Fault Recording :=
  (readLines (Text.lines bytes)).map Recording.mk

theorem readLines_append {xs ys : List (List UInt8)} {a b : List Sample}
    (hx : readLines xs = .ok a) (hy : readLines ys = .ok b) :
    readLines (xs ++ ys) = .ok (a ++ b) := by
  induction xs generalizing a with
  | nil => cases hx; simpa using hy
  | cons x xs ih =>
    cases hl : readLine x with
    | error f => simp [readLines, hl] at hx
    | ok s? =>
      cases hr : readLines xs with
      | error f => simp [readLines, hl, hr, Except.map] at hx
      | ok c =>
        simp only [readLines, hl, hr, Except.map, Except.ok.injEq] at hx
        simp [readLines, hl, ih hr, Except.map, ← hx]

end Recording

end StickArbiter
