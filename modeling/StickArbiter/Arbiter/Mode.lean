import StickArbiter.Input.Sample

/-!
# Selection modes

A mode says which sources may be selected and whether a selected slot is kept while it lives.
-/

namespace StickArbiter

inductive Mode
  | rcOnly
  | mavlinkOnly
  /-- Every source, and a selected slot is kept while it lives. -/
  | fallback
  /-- Every source, and always the lowest live slot. -/
  | priority
  | disabled
deriving DecidableEq, Repr, Inhabited

namespace Mode

/-- All modes, in the order of their integer encodings. -/
def all : List Mode := [.rcOnly, .mavlinkOnly, .fallback, .priority, .disabled]

/-- The name used in settings and on the wire. -/
def name : Mode → String
  | .rcOnly => "rc_only"
  | .mavlinkOnly => "mavlink_only"
  | .fallback => "fallback"
  | .priority => "priority"
  | .disabled => "disabled"

/-- The name used in log lines. -/
def label : Mode → String
  | .rcOnly => "RcOnly"
  | .mavlinkOnly => "MavlinkOnly"
  | .fallback => "Fallback"
  | .priority => "Priority"
  | .disabled => "Disabled"

def ofName? (s : String) : Option Mode := all.find? (·.name = s)

/-- The mode of an integer encoding; there are none outside 0 to 4. -/
def ofInt? (n : Int) : Option Mode := if n < 0 then none else all[n.toNat]?

/-- Whether samples from a source may be selected. -/
def accepts : Mode → Source → Bool
  | .rcOnly, s => s = .rc
  | .mavlinkOnly, s => s.isMavlink
  | .fallback, _ => true
  | .priority, _ => true
  | .disabled, _ => false

/-- Whether a selected slot is kept while it lives. -/
def isSticky (m : Mode) : Bool := m ≠ .priority

theorem ofName?_name (m : Mode) : ofName? m.name = some m := by cases m <;> decide +kernel

end Mode

end StickArbiter
