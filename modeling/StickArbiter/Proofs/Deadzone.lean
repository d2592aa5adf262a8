import StickArbiter.Proofs.Accepted
import StickArbiter.Proofs.Finiteness

/-!
# Accepted ranges

Settings read from a text have their sensitivity and their dead zones in range, except that a dead
zone may be no number.
-/

namespace StickArbiter

open Single

namespace Gamepad

variable {low high x deadzone : Float32}

theorem isNaN_clamp (hlow : low.isNaN = false) (hhigh : high.isNaN = false) (x : Float32) :
    (clamp low high x).isNaN = x.isNaN := by
  unfold clamp
  cases hx : x.isNaN with
  | true =>
    rw [if_neg (not_lt_of_isNaN (.inl hx)), if_neg (not_lt_of_isNaN (.inr hx)), hx]
  | false =>
    simp only []
    split
    · split
      · exact hhigh
      · exact hlow
    · split
      · exact hhigh
      · exact hx

theorem isNaN_ofInt (n : Int) : (Decimal.ofInt n).isNaN = false := by
  unfold Decimal.ofInt
  split
  · rw [isNaN_neg, isNaN_ofNat]
  · rw [isNaN_ofNat]

theorem isNaN_centred (raw : Int32) : (centred raw).isNaN = false := by
  unfold centred
  rw [isNaN_clamp (by decide) (by decide), isNaN_div _ (by decide), isNaN_ofInt]

theorem isNaN_throttle (raw : Int32) : (throttle raw).isNaN = false := by
  have hquotient : (Decimal.ofInt raw / 255).isNaN = false := by
    rw [isNaN_div _ (by decide), isNaN_ofInt]
  unfold throttle
  rw [isNaN_clamp (by decide) (by decide), isNaN_sub (.inl (by decide)), hquotient]
  decide

theorem isProper_signOf (h : x.isNaN = false) : isProper (signOf x).toModel.unpack = true := by
  unfold signOf
  rw [if_neg (Bool.eq_false_iff.mp h)]
  split <;> decide

/-- A dead zone in range keeps numbers, and one that is no number makes none. -/
theorem isNaN_outsideDeadzone
    (h : deadzone.isNaN = false → 0.0 ≤ deadzone ∧ deadzone ≤ 0.25) (hx : x.isNaN = false) :
    (outsideDeadzone deadzone x).isNaN = deadzone.isNaN := by
  unfold outsideDeadzone
  cases hd : deadzone.isNaN with
  | false =>
    obtain ⟨hlow, hhigh⟩ := h hd
    split
    · decide
    · have hsign := isProper_signOf hx
      rw [isNaN_div _ (proper_one_sub hlow hhigh), isNaN_mul (.inl hsign),
        isNaN_sub (.inr (isInf_of_range hlow hhigh)), isNaN_abs, isNaN_of_isProper hsign, hx, hd]
      rfl
  | true =>
    have hgreater : ¬ x.abs ≤ deadzone := by
      intro hle
      cases hd.symm.trans (isNaN_of_le hle).2
    rw [if_neg hgreater]
    refine isNaN_div_of_isNaN ?_ _
    rw [isNaN_mul (.inl (isProper_signOf hx)), isNaN_sub (.inr (isInf_of_isNaN hd)), hd]
    simp

theorem Sticks.isNaN_axes (h : deadzone.isNaN = false → 0.0 ≤ deadzone ∧ deadzone ≤ 0.25)
    (s : Sticks) :
    (s.axes deadzone).x.isNaN = deadzone.isNaN ∧ (s.axes deadzone).y.isNaN = deadzone.isNaN ∧
      (s.axes deadzone).r.isNaN = deadzone.isNaN ∧ (s.axes deadzone).z.isNaN = false := by
  refine ⟨isNaN_outsideDeadzone h (isNaN_centred _), isNaN_outsideDeadzone h ?_,
    isNaN_outsideDeadzone h (isNaN_centred _), isNaN_throttle _⟩
  rw [isNaN_neg, isNaN_centred]

end Gamepad

namespace Settings

variable {s : Settings} {source : SourceSettings}

theorem sensitivity_of_accepted (h : s.violations = []) :
    0.0 < s.gestures.overrideSensitivity ∧ s.gestures.overrideSensitivity ≤ 100.0 := by
  simp only [violations, List.append_eq_nil_iff, brokenIf_eq_nil] at h
  obtain ⟨⟨⟨⟨⟨⟨⟨-, hsensitivity⟩, -⟩, -⟩, -⟩, -⟩, -⟩, -⟩ := h
  rw [Bool.not_eq_false', Bool.and_eq_true, decide_eq_true_eq, decide_eq_true_eq] at hsensitivity
  exact hsensitivity

theorem deadzone_of_accepted (h : s.violations = []) (hmem : source ∈ s.sources)
    (hnumber : source.deadzone.isNaN = false) :
    0.0 ≤ source.deadzone ∧ source.deadzone ≤ 0.25 := by
  obtain ⟨slot, hsource⟩ := source_of_accepted h hmem
  simp only [SourceSettings.violations, List.append_eq_nil_iff, brokenIf_eq_nil] at hsource
  obtain ⟨⟨-, hdeadzone⟩, -⟩ := hsource
  rw [Bool.or_eq_false_iff, decide_eq_false_iff_not, decide_eq_false_iff_not] at hdeadzone
  exact ⟨le_of_not_lt hnumber (by decide) hdeadzone.1, le_of_not_lt (by decide) hnumber hdeadzone.2⟩

/-- The sensitivity is a number above 0 and at most 100. A dead zone is a number from 0 to 0.25, or no
number, and then the sticks give none. -/
theorem ranges_of_ofText {text : String} {s : Settings} (h : ofText text = .ok s) :
    (s.gestures.overrideSensitivity.isNaN = false ∧ 0.0 < s.gestures.overrideSensitivity ∧
      s.gestures.overrideSensitivity ≤ 100.0) ∧
    ∀ source ∈ s.sources,
      (source.deadzone.isNaN = false ↔ 0.0 ≤ source.deadzone ∧ source.deadzone ≤ 0.25) ∧
      ∀ sticks : Gamepad.Sticks,
        let axes := sticks.axes source.deadzone
        axes.x.isNaN = source.deadzone.isNaN ∧ axes.y.isNaN = source.deadzone.isNaN ∧
          axes.r.isNaN = source.deadzone.isNaN ∧ axes.z.isNaN = false := by
  have haccepted := violations_of_ofText h
  obtain ⟨hpositive, hlimit⟩ := sensitivity_of_accepted haccepted
  refine ⟨⟨(isNaN_of_le hlimit).1, hpositive, hlimit⟩, fun source hmem => ⟨⟨?_, ?_⟩, ?_⟩⟩
  · exact deadzone_of_accepted haccepted hmem
  · exact fun hrange => (isNaN_of_le hrange.1).2
  · exact Gamepad.Sticks.isNaN_axes (deadzone_of_accepted haccepted hmem)

def noDeadzone : Settings :=
  { sources := [{ kind := .joystick, deadzone := Float32.ofBits 0x7FC00000 }] }

theorem ofText_noDeadzone :
    ofText "[[sources]]\nkind = \"joystick\"\ndeadzone = nan\n" = .ok noDeadzone :=
  ok_of_toOption (by decide +kernel)

/-- The sticks of such a gamepad at rest: roll, pitch and yaw are no numbers. -/
theorem ranges_noDeadzone :
    noDeadzone.gestures.overrideSensitivity ≤ 100.0 ∧
      (({} : Gamepad.Sticks).axes (Float32.ofBits 0x7FC00000)).x.isNaN = true ∧
      (({} : Gamepad.Sticks).axes (Float32.ofBits 0x7FC00000)).z.isNaN = false := by
  obtain ⟨hsensitivity, hsources⟩ := ranges_of_ofText ofText_noDeadzone
  obtain ⟨hx, -, -, hz⟩ := (hsources _ (List.mem_singleton.mpr rfl)).2 {}
  exact ⟨hsensitivity.2.2, hx.trans (by decide), hz⟩

theorem deadzone_not_in_range :
    ¬ ∀ (text : String) (s : Settings), ofText text = .ok s →
      ∀ source ∈ s.sources, 0.0 ≤ source.deadzone ∧ source.deadzone ≤ 0.25 := by
  intro h
  have hrange := h _ _ ofText_noDeadzone _ (List.mem_singleton.mpr rfl)
  exact absurd hrange.1 (by decide)

end Settings

end StickArbiter
