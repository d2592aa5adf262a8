import Mathlib
import StickArbiter.Gesture.Geometry

/-!
# Results that are numbers

Rounding always gives a number. What does not are operands that are none, differences and quotients
of infinities, and quotients of zeros.
-/

namespace StickArbiter.Single

open Float.Model (Format UnpackedFloat totalExponent)
open Float.Model.UnpackedFloat

abbrev format : Format := .binary32

theorem targetExponent_eq (t : Int) : format.targetExponent t = max (t - 24) (-149) := by
  unfold Format.targetExponent
  rfl

/-! ## Rounding -/

theorem isNaN_roundWithAccuracy (s : Sign) (m : Nat) (e : Int) (a : Accuracy) :
    (roundWithAccuracy format s m e a).isNaN = false := by
  unfold roundWithAccuracy
  simp only []
  split <;> rfl

theorem isNaN_normalize (m : Int) (e : Int) (s : Sign) :
    (UnpackedFloat.normalize format m e s).isNaN = false := by
  unfold UnpackedFloat.normalize UnpackedFloat.round
  split
  · exact isNaN_roundWithAccuracy ..
  · rfl
  · exact isNaN_roundWithAccuracy ..

theorem mantissa_shift (k : Nat) (em : ExtendedMantissa) :
    (em >>> k).mantissa = em.mantissa / 2 ^ k := by
  induction k with
  | zero => simp [HShiftRight.hShiftRight, Nat.repeat]
  | succ k ih =>
    change (em >>> k).shiftRightOne.mantissa = _
    unfold ExtendedMantissa.shiftRightOne
    simp only [ih, Nat.div_div_eq_div_mul, Nat.pow_succ]

theorem mantissa_shifted (k m : Nat) (a : Accuracy) :
    (ExtendedMantissa.ofMantissaAndAccuracy m a >>> k).mantissa = m / 2 ^ k := by
  rw [mantissa_shift]
  rcases a with _ | _ | _ | _ <;> rfl

theorem roundedMantissa_bounds (em : ExtendedMantissa) :
    em.mantissa ≤ em.roundedMantissa ∧ em.roundedMantissa ≤ em.mantissa + 1 := by
  obtain ⟨m, r, s⟩ := em
  unfold ExtendedMantissa.roundedMantissa
  rcases r with _ | _ <;> rcases s with _ | _ <;>
    simp only [ExtendedMantissa.accuracy, Accuracy.roundToNearestEven] <;> omega

theorem shift_bounds {m : Nat} (hm : 0 < m) {e : Int} (he : -149 ≤ e) :
    0 < m / 2 ^ (format.targetExponent (totalExponent m e) - e).toNat ∧
      m / 2 ^ (format.targetExponent (totalExponent m e) - e).toNat < 2 ^ 24 := by
  rw [targetExponent_eq]
  unfold totalExponent
  have hlow := Nat.log2_self_le (Nat.ne_of_gt hm)
  have hhigh := @Nat.lt_log2_self m
  generalize m.log2 = l at *
  rcases Nat.lt_or_ge l 23 with hl | hl
  · have hk : (max ((l : Int) + 1 + e - 24) (-149) - e).toNat = 0 := by omega
    have hpow : 2 ^ (l + 1) ≤ 2 ^ 24 := Nat.pow_le_pow_right (by decide) (by omega)
    rw [hk, Nat.pow_zero, Nat.div_one]
    exact ⟨hm, Nat.lt_of_lt_of_le hhigh hpow⟩
  · obtain ⟨k, rfl⟩ : ∃ k, l = 23 + k := ⟨l - 23, by omega⟩
    have hk : (max (((23 + k : Nat) : Int) + 1 + e - 24) (-149) - e).toNat = k := by omega
    rw [hk]
    rw [Nat.pow_add] at hlow
    rw [show 23 + k + 1 = 24 + k by omega, Nat.pow_add] at hhigh
    refine ⟨Nat.div_pos ?_ (Nat.two_pow_pos k), ?_⟩
    · exact Nat.le_trans (Nat.le_mul_of_pos_left _ (Nat.two_pow_pos 23)) hlow
    · rwa [Nat.div_lt_iff_lt_mul (Nat.two_pow_pos k)]

/-- A float with a mantissa, in the range where it is packed as one. -/
def Moderate (u : UnpackedFloat) : Prop :=
  ∃ s m e h, u = .finite s m e h ∧ m < 2 ^ 24 ∧ -149 ≤ e ∧ e ≤ 103

theorem moderate_roundWithAccuracy (s : Sign) {m : Nat} (hm : 0 < m) {e : Int} (he : -149 ≤ e)
    (he' : e ≤ 100) (ht : totalExponent m e ≤ 100) (a : Accuracy) :
    Moderate (roundWithAccuracy format s m e a) := by
  obtain ⟨hpos, hlt⟩ := shift_bounds hm he
  have htarget := targetExponent_eq (totalExponent m e)
  unfold roundWithAccuracy shiftToTargetExponent shiftToExponent
  simp only []
  generalize hk : (format.targetExponent (totalExponent m e) - e).toNat = k at *
  obtain ⟨hlow, hhigh⟩ :=
    roundedMantissa_bounds (ExtendedMantissa.ofMantissaAndAccuracy m a >>> k)
  rw [mantissa_shifted] at hlow hhigh
  generalize ExtendedMantissa.roundedMantissa _ = r at *
  -- Rounding up can carry into one more bit, which the second shift gives back.
  obtain ⟨hpos', hlt'⟩ := shift_bounds (m := r) (by omega) (e := e + k) (by omega)
  have hlog : r.log2 < 25 := (Nat.log2_lt (by omega)).mpr (by omega)
  have htarget' := targetExponent_eq (totalExponent r (e + k))
  have htotal' : totalExponent r (e + k) = r.log2 + 1 + (e + k) := rfl
  rw [← mantissa_shifted _ r .exact] at hpos' hlt'
  rw [dif_neg (Nat.ne_of_gt hpos')]
  exact ⟨_, _, _, hpos', rfl, hlt', by omega, by omega⟩

theorem moderate_round (s : Sign) {m : Nat} (hm : 0 < m) {e : Int} (he : -149 ≤ e)
    (he' : e ≤ 100) (ht : totalExponent m e ≤ 100) :
    Moderate (UnpackedFloat.round format s m e) := by
  have htarget := targetExponent_eq (totalExponent m e)
  unfold UnpackedFloat.round decreaseExponent
  simp only [Nat.shiftLeft_eq]
  generalize hk : (e - format.targetExponent (totalExponent m e)).toNat = k
  have hm' : 0 < m * 2 ^ k := Nat.mul_pos hm (Nat.two_pow_pos k)
  have hlog : (m * 2 ^ k).log2 < m.log2 + 1 + k := by
    rw [Nat.log2_lt (Nat.ne_of_gt hm'), Nat.pow_add]
    exact Nat.mul_lt_mul_of_pos_right Nat.lt_log2_self (Nat.two_pow_pos k)
  have htotal : totalExponent m e = m.log2 + 1 + e := rfl
  have htotal' : totalExponent (m * 2 ^ k) (e - k) = (m * 2 ^ k).log2 + 1 + (e - k) := rfl
  exact moderate_roundWithAccuracy s hm' (by omega) (by omega) (by omega) .exact

theorem moderate_normalize {m : Int} (hm : 0 < m) (s : Sign) {e : Int} (he : -149 ≤ e)
    (he' : e ≤ 100) (ht : totalExponent m.toNat e ≤ 100) :
    Moderate (UnpackedFloat.normalize format m e s) := by
  unfold UnpackedFloat.normalize
  rw [Int.compare_eq_gt.mpr hm]
  exact moderate_round .positive (by omega) he he' ht

/-! ## Packing -/

def isProper : UnpackedFloat → Bool
  | .finite _ _ _ _ => true
  | _ => false

theorem isProper_unpack_packComponents {s : Sign} {e : BitVec 8} {m : BitVec 23} (he : e ≠ -1#8)
    (h : e = 0#8 → m ≠ 0#23) : isProper (unpack format (packComponents format s e m)) = true := by
  unfold unpack
  simp only [unpackExponent_packComponents, unpackMantissa_packComponents]
  rw [if_neg he]
  split
  next hzero =>
    rw [dif_neg (h hzero)]
    rfl
  next => rfl

theorem isNaN_unpack_packComponents {s : Sign} {e : BitVec 8} {m : BitVec 23} (he : e ≠ -1#8) :
    (unpack format (packComponents format s e m)).isNaN = false := by
  unfold unpack
  simp only [unpackExponent_packComponents, unpackMantissa_packComponents]
  rw [if_neg he]
  split
  · split <;> rfl
  · rfl

theorem exponent_ne_of_lt {n : Nat} (h : n < 255) : BitVec.ofNat 8 n ≠ -1#8 := by
  intro heq
  have hnat : n % 256 = 255 := congrArg BitVec.toNat heq
  omega

theorem pack_finite (s : Sign) (m : Nat) (e : Int) (hm : 0 < m) :
    pack format (.finite s m e hm) =
      if 255 ≤ (e + 150).toNat then packedInfinity format s
      else if m.log2 = 23 then
        packComponents format s (BitVec.ofNat 8 (e + 150).toNat) (BitVec.ofNat 23 m)
      else packComponents format s 0#8 (BitVec.ofNat 23 m) := by
  have hbias : e + (format.exponentBias : Int) + (format.mantissaBitsWithoutImplicit : Int) =
      e + 150 := by
    change e + 127 + 23 = e + 150
    omega
  have hlimit : (2 ^ format.exponentBits ≤ (e + 150).toNat + 1) = (255 ≤ (e + 150).toNat) := by
    change (256 ≤ (e + 150).toNat + 1) = _
    simp
  have hbits : (m.log2 + 1 = format.mantissaBits) = (m.log2 = 23) := by
    change (m.log2 + 1 = 24) = _
    simp
  unfold pack
  simp only [hbias, hlimit, hbits]

theorem isNaN_pack (u : UnpackedFloat) : (Float32.Model.pack u).isNaN = u.isNaN := by
  change (unpack format (pack format u)).isNaN = _
  rcases u with s | _ | s | ⟨s, m, e, hm⟩
  · cases s <;> rfl
  · rfl
  · cases s <;> rfl
  · rw [pack_finite]
    split
    · cases s <;> rfl
    · split
      · exact isNaN_unpack_packComponents (exponent_ne_of_lt (by omega))
      · exact isNaN_unpack_packComponents (by decide)

theorem isProper_unpack_pack {u : UnpackedFloat} (h : Moderate u) :
    isProper (Float32.Model.pack u).unpack = true := by
  obtain ⟨s, m, e, hm, rfl, hlt, hlow, hhigh⟩ := h
  change isProper (unpack format (pack format (.finite s m e hm))) = true
  rw [pack_finite, if_neg (by omega)]
  split
  next hlog =>
    refine isProper_unpack_packComponents (exponent_ne_of_lt (by omega)) ?_
    intro heq
    have hnat : (e + 150).toNat % 256 = 0 := congrArg BitVec.toNat heq
    omega
  next hlog =>
    refine isProper_unpack_packComponents (by decide) ?_
    intro _ heq
    have hlog' : m.log2 < 24 := (Nat.log2_lt (by omega)).mpr hlt
    have hlt' : m < 2 ^ 23 := (Nat.log2_lt (by omega)).mp (by omega)
    have hnat : m % 2 ^ 23 = 0 := congrArg BitVec.toNat heq
    rw [Nat.mod_eq_of_lt hlt'] at hnat
    omega

theorem finite_of_unpack {x : Float32} {s : Sign} {m : Nat} {e : Int} {hm : 0 < m}
    (h : x.toModel.unpack = .finite s m e hm) : m < 2 ^ 24 ∧ -149 ≤ e := by
  have hbias : (format.exponentBias : Int) = 127 := rfl
  change unpack format _ = _ at h
  unfold unpack at h
  simp only [hbias] at h
  split at h
  · split at h <;> cases h
  · split at h
    · split at h
      · cases h
      · cases h
        have hm := (@unpackMantissa format x.toModel.toBits.toBitVec).isLt
        simp only [] at hm
        omega
    next hzero =>
      cases h
      have hne : (@unpackExponent format x.toModel.toBits.toBitVec).toNat ≠ 0 :=
        fun he => hzero (BitVec.eq_of_toNat_eq he)
      have hm := (1#1 ++ @unpackMantissa format x.toModel.toBits.toBitVec).isLt
      simp only [] at hm
      omega

/-! ## Operands -/

theorem isNaN_sub_unpacked {u v : UnpackedFloat} (h : u.isInf = false ∨ v.isInf = false) :
    (UnpackedFloat.sub format u v).isNaN = (u.isNaN || v.isNaN) := by
  rcases u with s | _ | s | ⟨s, m, e, hm⟩ <;> rcases v with s' | _ | s' | ⟨s', m', e', hm'⟩
  case finite.finite => exact isNaN_normalize ..
  case zero.zero => cases s <;> cases s' <;> rfl
  case infinity.infinity => rcases h with h | h <;> cases h
  all_goals rfl

theorem isNaN_mul_unpacked {u v : UnpackedFloat} (h : isProper u = true ∨ isProper v = true) :
    (UnpackedFloat.mul format u v).isNaN = (u.isNaN || v.isNaN) := by
  rcases u with s | _ | s | ⟨s, m, e, hm⟩ <;> rcases v with s' | _ | s' | ⟨s', m', e', hm'⟩
  case finite.finite => exact isNaN_roundWithAccuracy ..
  case infinity.zero | zero.infinity => rcases h with h | h <;> cases h
  all_goals rfl

theorem isNaN_div_unpacked (u : UnpackedFloat) {v : UnpackedFloat} (h : isProper v = true) :
    (UnpackedFloat.div format u v).isNaN = u.isNaN := by
  rcases v with s | _ | s | ⟨s, m, e, hm⟩
  case finite =>
    rcases u with s' | _ | s' | ⟨s', m', e', hm'⟩
    case finite => exact isNaN_roundWithAccuracy ..
    all_goals rfl
  all_goals cases h

variable {x y : Float32}

theorem isNaN_neg (x : Float32) : (-x).isNaN = x.isNaN := by
  refine (isNaN_pack x.toModel.unpack.neg).trans ?_
  change _ = x.toModel.unpack.isNaN
  cases x.toModel.unpack <;> rfl

theorem isNaN_abs (x : Float32) : x.abs.isNaN = x.isNaN := by
  refine (isNaN_pack x.toModel.unpack.abs).trans ?_
  change _ = x.toModel.unpack.isNaN
  cases x.toModel.unpack <;> rfl

theorem isNaN_sub (h : x.isInf = false ∨ y.isInf = false) :
    (x - y).isNaN = (x.isNaN || y.isNaN) :=
  (isNaN_pack _).trans (isNaN_sub_unpacked h)

theorem isNaN_mul (h : isProper x.toModel.unpack = true ∨ isProper y.toModel.unpack = true) :
    (x * y).isNaN = (x.isNaN || y.isNaN) :=
  (isNaN_pack _).trans (isNaN_mul_unpacked h)

theorem isNaN_div (x : Float32) (h : isProper y.toModel.unpack = true) :
    (x / y).isNaN = x.isNaN :=
  (isNaN_pack _).trans (isNaN_div_unpacked x.toModel.unpack h)

theorem isNaN_ofScientific (m : Nat) (e : Int) : (ofScientific format m e).isNaN = false := by
  unfold ofScientific
  split
  · rfl
  · split
    · rfl
    · split
      · rfl
      · split
        · exact isNaN_mul_unpacked (.inl rfl)
        · exact isNaN_div_unpacked _ rfl

theorem isNaN_ofNat (n : Nat) : (Float32.ofNat n).isNaN = false := by
  have hsmall : n.toUInt64.toFloat32.isNaN = false := (isNaN_pack _).trans (isNaN_normalize ..)
  unfold Float32.ofNat
  change (Float32.ofScientific n false 0).isNaN = false
  unfold Float32.ofScientific
  split
  · change (n.toUInt64.toFloat32 * Float32.ofBits 0x3F800000).isNaN = false
    rw [isNaN_mul (.inr (by decide)), hsmall]
    decide
  · exact (isNaN_pack _).trans (isNaN_ofScientific n 0)

theorem isNaN_div_of_isNaN (h : x.isNaN = true) (y : Float32) : (x / y).isNaN = true := by
  refine (isNaN_pack (UnpackedFloat.div format x.toModel.unpack y.toModel.unpack)).trans ?_
  change x.toModel.unpack.isNaN = true at h
  generalize x.toModel.unpack = u at h ⊢
  rcases u with s | _ | s | ⟨s, m, e, hm⟩ <;> cases h
  rfl

/-! ## Comparing -/

theorem le_iff_compare (x y : Float32) :
    x ≤ y ↔ (x.toModel.unpack.compare y.toModel.unpack).any (·.isLE) = true := by
  change decide (x.toModel.unpack.le y.toModel.unpack = true) = true ↔ _
  rw [decide_eq_true_eq]
  rfl

theorem isSome_compare (u v : UnpackedFloat) :
    (u.compare v).isSome = (!u.isNaN && !v.isNaN) := by
  rcases u with ⟨_ | _⟩ | _ | ⟨_ | _⟩ | ⟨_ | _, m, e, _⟩ <;>
    rcases v with ⟨_ | _⟩ | _ | ⟨_ | _⟩ | ⟨_ | _, m', e', _⟩ <;> rfl

theorem compare_swap (u v : UnpackedFloat) : v.compare u = (u.compare v).map Ordering.swap := by
  rcases u with ⟨_ | _⟩ | _ | ⟨_ | _⟩ | ⟨_ | _, m, e, _⟩ <;>
    rcases v with ⟨_ | _⟩ | _ | ⟨_ | _⟩ | ⟨_ | _, m', e', _⟩
  -- Only two numbers of one sign are compared by their magnitudes.
  case finite.negative.finite.negative | finite.positive.finite.positive =>
    have hexponent : compare e' e = (compare e e').swap := (Int.compare_swap e e').symm
    have hmantissa : compare m' m = (compare m m').swap := (Nat.compare_swap m m').symm
    simp [UnpackedFloat.compare, hexponent, hmantissa, Ordering.swap_then]
  all_goals rfl

theorem not_lt_of_isNaN (h : x.isNaN = true ∨ y.isNaN = true) : ¬ x < y := by
  intro hlt
  have hsome := isSome_compare x.toModel.unpack y.toModel.unpack
  rw [(Geometry.lt_iff_compare x y).mp hlt, Option.isSome_some, eq_comm, Bool.and_eq_true,
    Bool.not_eq_true', Bool.not_eq_true'] at hsome
  rcases h with h | h
  · cases h.symm.trans hsome.1
  · cases h.symm.trans hsome.2

theorem isNaN_of_isProper (h : isProper x.toModel.unpack = true) : x.isNaN = false := by
  change x.toModel.unpack.isNaN = false
  generalize x.toModel.unpack = u at h ⊢
  rcases u with s | _ | s | ⟨s, m, e, hm⟩ <;> first | rfl | cases h

theorem isInf_of_isNaN (h : x.isNaN = true) : x.isInf = false := by
  change x.toModel.unpack.isNaN = true at h
  change x.toModel.unpack.isInf = false
  generalize x.toModel.unpack = u at h ⊢
  rcases u with s | _ | s | ⟨s, m, e, hm⟩ <;> first | rfl | cases h

theorem isNaN_of_le (h : x ≤ y) : x.isNaN = false ∧ y.isNaN = false := by
  rw [le_iff_compare] at h
  have hsome := isSome_compare x.toModel.unpack y.toModel.unpack
  rw [Option.isSome_of_any h, eq_comm, Bool.and_eq_true, Bool.not_eq_true', Bool.not_eq_true']
    at hsome
  exact hsome

theorem le_of_not_lt (hx : x.isNaN = false) (hy : y.isNaN = false) (h : ¬ x < y) : y ≤ x := by
  have hsome : (x.toModel.unpack.compare y.toModel.unpack).isSome = true := by
    rw [isSome_compare]
    exact (Bool.and_eq_true _ _).mpr ⟨congrArg not hx, congrArg not hy⟩
  obtain ⟨o, ho⟩ := Option.isSome_iff_exists.mp hsome
  rw [Geometry.lt_iff_compare, ho] at h
  rw [le_iff_compare, compare_swap, ho]
  rcases o with _ | _ | _
  · exact absurd rfl h
  · rfl
  · rfl

/-! ## What is left of one -/

theorem unpack_cases (hlow : 0.0 ≤ x) (hhigh : x ≤ 0.25) :
    (∃ s, x.toModel.unpack = .zero s) ∨
      ∃ m e h, x.toModel.unpack = .finite .positive m e h ∧ m < 2 ^ 24 ∧ -149 ≤ e ∧ e ≤ -25 := by
  obtain ⟨hm, hquarter⟩ :
      ∃ h, (0.25 : Float32).toModel.unpack = .finite .positive (2 ^ 23) (-25) h := ⟨_, rfl⟩
  have hzero : (0.0 : Float32).toModel.unpack = .zero .positive := rfl
  rw [le_iff_compare, hzero] at hlow
  rw [le_iff_compare, hquarter] at hhigh
  rcases hx : x.toModel.unpack with s | _ | s | ⟨s, m, e, hm⟩ <;> rw [hx] at hlow hhigh
  · cases s
    · cases hlow
    · cases hhigh
  · cases hlow
  · exact Or.inl ⟨s, rfl⟩
  · obtain ⟨hmantissa, hexponent⟩ := finite_of_unpack hx
    cases s
    · cases hlow
    · refine Or.inr ⟨m, e, hm, rfl, hmantissa, hexponent, ?_⟩
      refine Int.not_lt.mp fun hlarge => ?_
      have hgreater : compare e (-25) = .gt := Int.compare_eq_gt.mpr (by omega)
      simp [UnpackedFloat.compare, hgreater] at hhigh

theorem isInf_of_range (hlow : 0.0 ≤ x) (hhigh : x ≤ 0.25) : x.isInf = false := by
  change x.toModel.unpack.isInf = false
  rcases unpack_cases hlow hhigh with ⟨s, hx⟩ | ⟨m, e, hm, hx, -⟩ <;> rw [hx] <;> rfl

theorem proper_one_sub (hlow : 0.0 ≤ x) (hhigh : x ≤ 0.25) :
    isProper (1 - x).toModel.unpack = true := by
  obtain ⟨hone, hunpack⟩ :
      ∃ h, (1 : Float32).toModel.unpack = .finite .positive (2 ^ 23) (-23) h := ⟨_, rfl⟩
  change isProper (Float32.Model.pack (UnpackedFloat.sub format (1 : Float32).toModel.unpack
    x.toModel.unpack)).unpack = true
  rw [hunpack]
  apply isProper_unpack_pack
  rcases unpack_cases hlow hhigh with ⟨s, hx⟩ | ⟨m, e, hm, hx, hlt, hleast, hmost⟩
  · rw [hx]
    exact ⟨_, _, _, hone, rfl, by decide, by decide, by decide⟩
  · rw [hx]
    unfold UnpackedFloat.sub decreaseExponent
    simp only [Sign.apply, Nat.shiftLeft_eq]
    obtain ⟨k, rfl⟩ : ∃ k : Nat, e = -25 - k := ⟨(-25 - e).toNat, by omega⟩
    have hsmaller : min (-23) (-25 - (k : Int)) = -25 - k := by omega
    have hshift : (-23 - (-25 - (k : Int))).toNat = k + 2 := by omega
    have hpow : 2 ^ 23 * 2 ^ (k + 2) = 2 ^ 25 * 2 ^ k := by
      rw [← Nat.pow_add, ← Nat.pow_add]
      congr 1
      omega
    have hpos := Nat.two_pow_pos k
    rw [hsmaller, hshift, hpow, Int.sub_self, Int.toNat_zero, Nat.pow_zero, Nat.mul_one]
    refine moderate_normalize (by omega) .positive (by omega) (by omega) ?_
    have hlog : ((2 ^ 25 * 2 ^ k : Nat) - (m : Int)).toNat.log2 < 25 + k := by
      rw [Nat.log2_lt (by omega), Nat.pow_add]
      omega
    unfold totalExponent
    omega

end StickArbiter.Single
