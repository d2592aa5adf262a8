import StickArbiter.Arbiter.Parameters
import StickArbiter.Arbiter.Setpoint

/-!
# Selecting a slot

A slot is live while its last sample is usable, accepted and younger than the timeout, by its
receipt. A sticky mode keeps the present slot while it lives; otherwise the lowest live one is taken.
-/

namespace StickArbiter

structure Reading where
  sample : Sample
  received : Instant
deriving DecidableEq, Inhabited

def Setpoint.showing (sp : Setpoint) (slot : Nat) (s : Sample) : Setpoint :=
  { sp with
    axes := s.axes, timestamp := s.timestamp, source := s.source, valid := true, slot := some slot }

/-- The setpoint without an input; its values stay as they are. -/
def Setpoint.withoutInput (sp : Setpoint) : Setpoint := { sp with valid := false, slot := none }

/-- The slots, how to select one, and the setpoint composed from the selected one. -/
structure Selector where
  slots : List (Option Reading)
  mode : Mode := .fallback
  timeout : Span := .ofMillis 500
  setpoint : Setpoint := .invalid
deriving DecidableEq, Inhabited

namespace Selector

def ofCount (count : Nat) : Selector := { slots := List.replicate count none }

def slotCount (s : Selector) : Nat := s.slots.length

/-- The slot the setpoint was taken from. -/
def selected (s : Selector) : Option Nat := s.setpoint.slot

/-- What a slot received last. -/
def reading? (s : Selector) (slot : Nat) : Option Reading := s.slots[slot]?.join

def admits (mode : Mode) (timeout : Span) (now : Instant) (r : Reading) : Bool :=
  r.sample.valid && mode.accepts r.sample.source && now.since r.received < timeout

def isLive (s : Selector) (now : Instant) (slot : Nat) : Bool :=
  match s.reading? slot with
  | some r => admits s.mode s.timeout now r
  | none => false

def lowestLive? (s : Selector) (now : Instant) : Option Nat :=
  (List.range s.slotCount).find? (s.isLive now)

def choice? (s : Selector) (now : Instant) : Option Nat :=
  match s.selected with
  | some slot => if s.mode.isSticky && s.isLive now slot then some slot else s.lowestLive? now
  | none => s.lowestLive? now

def select (s : Selector) (now : Instant) : Selector :=
  { s with
    setpoint :=
      match (s.choice? now).bind fun slot => (s.reading? slot).map (slot, ·) with
      | some (slot, r) => s.setpoint.showing slot r.sample
      | none => s.setpoint.withoutInput }

/-- Records a sample for a slot without selecting. -/
def record (s : Selector) (now : Instant) (slot : Nat) (x : Sample) : Selector :=
  { s with slots := s.slots.set slot (some ⟨x, now⟩) }

/-- Takes a sample for a slot and selects. A slot that does not exist changes nothing. -/
def deliver (s : Selector) (now : Instant) (slot : Nat) (x : Sample) : Selector :=
  if slot < s.slotCount then (s.record now slot x).select now else s

@[simp]
theorem slots_select (s : Selector) (now : Instant) : (s.select now).slots = s.slots := rfl

@[simp]
theorem slotCount_select (s : Selector) (now : Instant) : (s.select now).slotCount = s.slotCount :=
  rfl

@[simp]
theorem slotCount_record (s : Selector) (now : Instant) (slot : Nat) (x : Sample) :
    (s.record now slot x).slotCount = s.slotCount := by
  simp [record, slotCount]

theorem slotCount_deliver (s : Selector) (now : Instant) (slot : Nat) (x : Sample) :
    (s.deliver now slot x).slotCount = s.slotCount := by
  unfold deliver; split <;> simp

theorem lt_slotCount_of_isLive {s : Selector} {now : Instant} {slot : Nat}
    (h : s.isLive now slot = true) : slot < s.slotCount := by
  rcases Nat.lt_or_ge slot s.slotCount with hlt | hge
  · exact hlt
  · have : s.slots[slot]? = none := List.getElem?_eq_none hge
    simp [isLive, reading?, this] at h

end Selector

end StickArbiter
