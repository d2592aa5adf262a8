import StickArbiter.Input.Sample

/-!
# Gesture geometry

The stick positions of the two gestures. Both need the throttle low and the right stick centred;
full yaw to the right arms and full yaw to the left disarms.
-/

namespace StickArbiter

structure Geometry where
  arm : Bool
  disarm : Bool
deriving DecidableEq, Repr

namespace Geometry

def centreLimit : Float32 := 0.1

def throttleLimit : Float32 := 0.1

def yawLimit : Float32 := 0.9

def rightStickCentred (a : Axes) : Bool := a.x.abs < centreLimit && a.y.abs < centreLimit

def throttleLow (a : Axes) : Bool := a.z < throttleLimit

def yawRight (a : Axes) : Bool := yawLimit < a.r

def yawLeft (a : Axes) : Bool := a.r < -yawLimit

def ofAxes (a : Axes) : Geometry :=
  { arm := throttleLow a && yawRight a && rightStickCentred a
    disarm := throttleLow a && yawLeft a && rightStickCentred a }

theorem lt_iff_compare (x y : Float32) :
    x < y ↔ x.toModel.unpack.compare y.toModel.unpack = some .lt := by
  change decide (x.toModel.unpack.lt y.toModel.unpack = true) = true ↔ _
  simp [Float.Model.UnpackedFloat.lt]

/-- No yaw is beyond the limit on both sides: above a positive number nothing is negative. -/
theorem yawLeft_of_yawRight (a : Axes) (h : yawRight a = true) : yawLeft a = false := by
  obtain ⟨m, e, hm, hlimit⟩ : ∃ m e hm, yawLimit.toModel.unpack = .finite .positive m e hm :=
    ⟨_, _, _, rfl⟩
  obtain ⟨m', e', hm', hopposite⟩ :
      ∃ m e hm, (-yawLimit).toModel.unpack = .finite .negative m e hm := ⟨_, _, _, rfl⟩
  simp only [yawRight, yawLeft, decide_eq_true_eq, decide_eq_false_iff_not] at h ⊢
  rw [lt_iff_compare, hlimit] at h
  rw [lt_iff_compare, hopposite]
  cases hr : a.r.toModel.unpack with
  | infinity s =>
    rw [hr] at h
    cases s with
    | negative => cases h
    | positive => nofun
  | notANumber => nofun
  | zero s => rw [hr] at h; cases h
  | finite s m e hm =>
    rw [hr] at h
    cases s with
    | negative => cases h
    | positive => nofun

theorem disarm_of_arm (a : Axes) (h : (ofAxes a).arm = true) : (ofAxes a).disarm = false := by
  simp only [ofAxes, Bool.and_eq_true] at h ⊢
  simp [yawLeft_of_yawRight a h.1.2]

end Geometry

end StickArbiter
