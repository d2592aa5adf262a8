/-!
# Channels that hold the latest value

A channel keeps only the last value sent. Its reader takes a value once, and only while the sender
is there; a wait on the channel ends for every value not yet taken, also when its sender is gone.
-/

namespace StickArbiter

/-- A channel with one sender and one reader. -/
structure Latest (α : Type) where
  value : α
  /-- How many values were sent. -/
  sent : Nat := 0
  /-- How many of them the reader has passed. -/
  passed : Nat := 0
  hasSender : Bool := true
  hasReader : Bool := true
deriving DecidableEq

namespace Latest

/-- A channel whose first value counts as taken. -/
def holding (a : α) : Latest α := { value := a }

def isFresh (c : Latest α) : Bool := c.passed < c.sent

/-- Sends a value; without a reader nothing is sent. -/
def send (c : Latest α) (a : α) : Latest α :=
  if c.hasReader then { c with value := a, sent := c.sent + 1 } else c

def pass (c : Latest α) : Latest α := { c with passed := c.sent }

/-- Whether a poll takes the last value. -/
def offers (c : Latest α) : Bool := c.hasSender && c.isFresh

def poll? (c : Latest α) : Option α := if c.offers then some c.value else none

def polled (c : Latest α) : Latest α := if c.offers then c.pass else c

def closeSender (c : Latest α) : Latest α := { c with hasSender := false }

def closeReader (c : Latest α) : Latest α := { c with hasReader := false }

@[simp]
theorem poll?_polled (c : Latest α) : c.polled.poll? = none := by
  have passed : c.pass.offers = false := by simp [offers, isFresh, pass]
  cases h : c.offers <;> simp [polled, poll?, h, passed]

/-- A value that is sent can be taken, as long as both ends are there. -/
theorem poll?_send (c : Latest α) (a : α) (hr : c.hasReader = true) (hs : c.hasSender = true)
    (hp : c.passed ≤ c.sent) : (c.send a).poll? = some a := by
  simp [send, hr, poll?, offers, isFresh, hs]; omega

end Latest

end StickArbiter
