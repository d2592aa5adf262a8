import StickArbiter.Proofs.Selection

/-!
# Selecting from any state

One selection puts a setpoint right, whatever was written into it. Only a slot found to be live is
looked up.
-/

namespace StickArbiter.Selector

def Lives (s : Selector) (now : Instant) (slot : Nat) : Prop :=
  ∃ r, s.slots[slot]? = some (some r) ∧ r.sample.valid = true ∧
    s.mode.accepts r.sample.source = true ∧ now.since r.received < s.timeout

/-- Selecting with the chosen slot looked up by its index. -/
def selectByIndex? (s : Selector) (now : Instant) : Option Selector :=
  match s.choice? now with
  | none => some { s with setpoint := s.setpoint.withoutInput }
  | some slot => s.slots[slot]?.map fun
    | some r => { s with setpoint := s.setpoint.showing slot r.sample }
    | none => { s with setpoint := s.setpoint.withoutInput }

/-- Valid exactly if it names a slot, and then one that is there and live. -/
structure Sound (s : Selector) (now : Instant) : Prop where
  valid_iff : s.setpoint.valid = true ↔
    ∃ slot, s.selected = some slot ∧ slot < s.slotCount ∧ s.Lives now slot
  none_of_invalid : s.setpoint.valid = false → s.selected = none

variable (s : Selector) (now : Instant)

theorem isLive_iff_lives (slot : Nat) : s.isLive now slot = true ↔ s.Lives now slot := by
  rw [isLive_iff, Lives]
  simp only [reading?, Option.join_eq_some_iff, admits, Bool.and_eq_true, decide_eq_true_eq,
    and_assoc]

/-- The chosen slot is live, so there is a sample at its index. -/
theorem selectByIndex?_eq : s.selectByIndex? now = some (s.select now) := by
  have hselect (sp : Setpoint) (h : (s.select now).setpoint = sp) :
      { s with setpoint := sp } = s.select now := h ▸ rfl
  unfold selectByIndex?
  rcases select_cases s now with ⟨slot, r, hc, hr, hsp⟩ | ⟨hc, hsp⟩
  · have hat : s.slots[slot]? = some (some r) := Option.join_eq_some_iff.mp hr
    simp only [hc, hat, Option.map_some, hselect _ hsp]
  · simp only [hc, hselect _ hsp]

theorem withoutInput_select_iff :
    (s.select now).setpoint = s.setpoint.withoutInput ↔ ∀ slot, ¬ s.Lives now slot := by
  simp only [← isLive_iff_lives, Bool.not_eq_true, ← choice?_eq_none_iff]
  rcases select_cases s now with ⟨slot, r, hc, -, hsp⟩ | ⟨hc, hsp⟩
  · rw [hc, hsp]
    refine iff_of_false (fun h => ?_) (Option.some_ne_none slot)
    cases congrArg Setpoint.valid h
  · exact iff_of_true hsp hc

variable {s now}

theorem Settled.sound (h : s.Settled now) : s.Sound now := by
  refine ⟨?_, selected_eq_none h⟩
  rw [valid_iff_of_settled h]
  constructor
  · rintro ⟨slot, hlive⟩
    obtain ⟨k, hk⟩ := Option.ne_none_iff_exists'.mp (selected_ne_none h hlive)
    have hk' := isLive_of_selected h hk
    exact ⟨k, hk, lt_slotCount_of_isLive hk', (s.isLive_iff_lives now k).mp hk'⟩
  · rintro ⟨slot, -, -, hlives⟩
    exact ⟨slot, (s.isLive_iff_lives now slot).mpr hlives⟩

variable (s now)

/-- From any state, selecting looks up no index that there is not, and leaves a sound setpoint after
a tick and after a sample for a slot that there is. -/
theorem sound_of_selection :
    s.selectByIndex? now = some (s.select now) ∧
    ((s.select now).setpoint = s.setpoint.withoutInput ↔ ∀ slot, ¬ s.Lives now slot) ∧
    (s.select now).Sound now ∧
    ∀ slot x, (slot < s.slotCount → (s.deliver now slot x).Sound now) ∧
      (s.slotCount ≤ slot → s.deliver now slot x = s) := by
  refine ⟨s.selectByIndex?_eq now, s.withoutInput_select_iff now, (settled_select s now).sound, ?_⟩
  intro slot x
  constructor
  · intro hslot
    rw [deliver, if_pos hslot]
    exact (settled_select _ now).sound
  · intro hslot
    rw [deliver, if_neg (Nat.not_lt.mpr hslot)]

def usable : Sample := { axes := .zero, timestamp := .zero, source := .rc }

def misnamed : Selector :=
  { slots := [none, some ⟨usable, .zero⟩], setpoint := { valid := true, slot := some 7 } }

theorem sound_misnamed :
    ¬ misnamed.Sound .zero ∧
      (misnamed.select .zero).Sound .zero ∧ (misnamed.select .zero).selected = some 1 ∧
      (misnamed.deliver .zero 0 usable).Sound .zero := by
  obtain ⟨-, -, htick, hdeliver⟩ := sound_of_selection misnamed .zero
  refine ⟨fun h => ?_, htick, rfl, (hdeliver 0 usable).1 (by decide)⟩
  obtain ⟨slot, hslot, hlt, -⟩ := h.valid_iff.mp rfl
  cases hslot
  exact absurd hlt (by decide)

/-- A sample for a slot that there is not leaves a setpoint that shows a stale slot. -/
theorem not_sound_of_unknown_slot :
    ¬ ∀ (s : Selector) (now : Instant) (slot : Nat) (x : Sample),
      (s.deliver now slot x).Sound now := by
  intro h
  have hsound := h ((ofCount 1).deliver .zero 0 usable) (.ofMillis 600) 7 usable
  obtain ⟨slot, hslot, -, hlives⟩ := hsound.valid_iff.mp (by decide +kernel)
  have hzero : slot = 0 := Option.some.inj (hslot.symm.trans (by decide +kernel))
  rw [hzero, ← isLive_iff_lives] at hlives
  revert hlives
  decide +kernel

end StickArbiter.Selector
