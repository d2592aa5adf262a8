/-!
# Time

Instants are microseconds on the station's own clock and spans are nanoseconds. Clocks hold
64 bits: adding a span stops at the last instant, and the span from a later instant to an earlier
one is empty.
-/

namespace StickArbiter

/-! ## Spans -/

/-- A length of time in nanoseconds. -/
structure Span where
  nanos : Nat
deriving DecidableEq, Repr

namespace Span

def zero : Span := ⟨0⟩

def ofMillis (n : Nat) : Span := ⟨n * 1000000⟩

def ofMicros (n : Nat) : Span := ⟨n * 1000⟩

def ofSeconds (seconds nanos : Nat) : Span := ⟨seconds * 1000000000 + nanos⟩

def seconds (d : Span) : Nat := d.nanos / 1000000000

def subsecond (d : Span) : Nat := d.nanos % 1000000000

def micros (d : Span) : Nat := d.nanos / 1000

/-- Milliseconds of a span, a started one counted as a whole one. -/
def millisCeil (d : Span) : Nat := (d.nanos + 999999) / 1000000

instance : LE Span := ⟨fun a b => a.nanos ≤ b.nanos⟩

instance : LT Span := ⟨fun a b => a.nanos < b.nanos⟩

instance (a b : Span) : Decidable (a ≤ b) := inferInstanceAs (Decidable (a.nanos ≤ b.nanos))

instance (a b : Span) : Decidable (a < b) := inferInstanceAs (Decidable (a.nanos < b.nanos))

def longer (a b : Span) : Span := ⟨max a.nanos b.nanos⟩

theorem le_def {a b : Span} : a ≤ b ↔ a.nanos ≤ b.nanos := Iff.rfl

theorem lt_def {a b : Span} : a < b ↔ a.nanos < b.nanos := Iff.rfl

theorem le_trans {a b c : Span} (h : a ≤ b) (h' : b ≤ c) : a ≤ c := Nat.le_trans h h'

end Span

/-! ## Instants -/

/-- A point on the station's clock, in microseconds since it started. -/
structure Instant where
  micros : Nat
  micros_lt : micros < UInt64.size
deriving DecidableEq, Repr

namespace Instant

def zero : Instant := ⟨0, by decide⟩

instance : Inhabited Instant := ⟨zero⟩

/-- The last instant a clock can show. -/
def maxMicros : Nat := UInt64.size - 1

/-- The instant `n` microseconds after the start, or the last one there is. -/
def ofMicros (n : Nat) : Instant :=
  ⟨min n maxMicros, by simp only [maxMicros, UInt64.size]; omega⟩

def ofMillis (n : Nat) : Instant := ofMicros (n * 1000)

@[ext]
theorem ext {s t : Instant} (h : s.micros = t.micros) : s = t := by
  cases s; cases t; simp_all

theorem micros_ofMicros (n : Nat) : (ofMicros n).micros = min n maxMicros := rfl

theorem micros_ofMicros_of_lt {n : Nat} (h : n < UInt64.size) : (ofMicros n).micros = n := by
  simp only [micros_ofMicros, maxMicros, UInt64.size] at h ⊢; omega

/-- The span from `earlier` to `later`, empty when the order is the other way round. -/
def since (later earlier : Instant) : Span := .ofMicros (later.micros - earlier.micros)

/-- The instant a span after `t`; what is below a microsecond is dropped. -/
def plus (t : Instant) (d : Span) : Instant := ofMicros (t.micros + d.micros)

instance : LE Instant := ⟨fun a b => a.micros ≤ b.micros⟩

instance : LT Instant := ⟨fun a b => a.micros < b.micros⟩

instance (a b : Instant) : Decidable (a ≤ b) := inferInstanceAs (Decidable (a.micros ≤ b.micros))

instance (a b : Instant) : Decidable (a < b) := inferInstanceAs (Decidable (a.micros < b.micros))

def order (a b : Instant) : Ordering := compare a.micros b.micros

theorem le_def {a b : Instant} : a ≤ b ↔ a.micros ≤ b.micros := Iff.rfl

theorem micros_since (a b : Instant) : (a.since b).micros = a.micros - b.micros :=
  Nat.mul_div_cancel _ (by decide)

theorem since_nanos (a b : Instant) : (a.since b).nanos = (a.micros - b.micros) * 1000 := rfl

theorem since_self (t : Instant) : t.since t = Span.zero := by
  simp [since, Span.ofMicros, Span.zero]

theorem since_le_since (now : Instant) {s t : Instant} (h : s ≤ t) : now.since t ≤ now.since s := by
  rw [le_def] at h
  rw [Span.le_def, since_nanos, since_nanos]
  omega

theorem since_le_zero_iff (later earlier : Instant) :
    later.since earlier ≤ Span.zero ↔ later ≤ earlier := by
  rw [Span.le_def, since_nanos, le_def]
  change (later.micros - earlier.micros) * 1000 ≤ 0 ↔ _
  omega

def latest : Instant := ⟨maxMicros, by decide⟩

theorem le_latest (t : Instant) : t ≤ latest := by
  have := t.micros_lt
  rw [le_def]
  change t.micros ≤ UInt64.size - 1
  simp only [UInt64.size] at this ⊢
  omega

end Instant

end StickArbiter
