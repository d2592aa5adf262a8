import Mathlib.Algebra.Group.Nat.Defs
import StickArbiter.Journal.Basic

/-!
# The order of file names

A name holds a second in a fixed number of digits and a counter, which has four digits below 10000:
names stand in the order of both.
-/

namespace StickArbiter

/-! ## Digits -/

theorem digit_bounds {c : Char} (h : c.isDigit = true) : 48 ≤ c.toNat ∧ c.toNat ≤ 57 :=
  Char.isDigit_iff_toNat.mp h

theorem ofDigitChars_bounds {cs : List Char} (h : ∀ c ∈ cs, c.isDigit = true) (n : Nat) :
    n * 10 ^ cs.length ≤ Nat.ofDigitChars 10 cs n ∧
      Nat.ofDigitChars 10 cs n < (n + 1) * 10 ^ cs.length := by
  induction cs generalizing n with
  | nil => simp
  | cons c cs ih =>
    rw [List.forall_mem_cons] at h
    have hc := digit_bounds h.1
    obtain ⟨hlow, hhigh⟩ := ih h.2 (10 * n + (c.toNat - 48))
    have hleast : 10 * n * 10 ^ cs.length ≤ (10 * n + (c.toNat - 48)) * 10 ^ cs.length :=
      Nat.mul_le_mul_right _ (by omega)
    have hmost : (10 * n + (c.toNat - 48) + 1) * 10 ^ cs.length ≤ 10 * (n + 1) * 10 ^ cs.length :=
      Nat.mul_le_mul_right _ (by omega)
    rw [Nat.ofDigitChars_cons, List.length_cons, Nat.pow_succ']
    change _ ≤ Nat.ofDigitChars 10 cs (10 * n + (c.toNat - 48)) ∧
      Nat.ofDigitChars 10 cs (10 * n + (c.toNat - 48)) < _
    constructor
    · calc n * (10 * 10 ^ cs.length) = 10 * n * 10 ^ cs.length := by ac_rfl
        _ ≤ _ := Nat.le_trans hleast hlow
    · calc _ < 10 * (n + 1) * 10 ^ cs.length := Nat.lt_of_lt_of_le hhigh hmost
        _ = (n + 1) * (10 * 10 ^ cs.length) := by ac_rfl

theorem lt_of_ofDigitChars_lt {cs ds : List Char} (hcs : ∀ c ∈ cs, c.isDigit = true)
    (hds : ∀ c ∈ ds, c.isDigit = true) (hlength : cs.length = ds.length) {n : Nat}
    (h : Nat.ofDigitChars 10 cs n < Nat.ofDigitChars 10 ds n) : cs < ds := by
  induction cs generalizing ds n with
  | nil =>
    rw [List.eq_nil_of_length_eq_zero hlength.symm] at h
    exact absurd h (Nat.lt_irrefl _)
  | cons c cs ih =>
    obtain ⟨d, ds, rfl⟩ := List.exists_cons_of_length_eq_add_one hlength.symm
    rw [List.forall_mem_cons] at hcs hds
    rw [Nat.ofDigitChars_cons, Nat.ofDigitChars_cons] at h
    have hlength' : cs.length = ds.length := Nat.succ.inj hlength
    have hc := digit_bounds hcs.1
    have hd := digit_bounds hds.1
    rw [List.cons_lt_cons_iff]
    rcases Nat.lt_trichotomy c.toNat d.toNat with hlt | heq | hgt
    · exact Or.inl hlt
    · obtain rfl := Char.toNat_inj.mp heq
      exact Or.inr ⟨rfl, ih hcs.2 hds.2 hlength' h⟩
    · -- A larger first digit makes a larger number, whatever follows.
      have hleast := (ofDigitChars_bounds hcs.2 (10 * n + (c.toNat - 48))).1
      have hmost := (ofDigitChars_bounds hds.2 (10 * n + (d.toNat - 48))).2
      have hstep : (10 * n + (d.toNat - 48) + 1) * 10 ^ ds.length ≤
          (10 * n + (c.toNat - 48)) * 10 ^ cs.length := by
        rw [hlength']
        exact Nat.mul_le_mul_right _ (by omega)
      exact absurd (Nat.lt_of_lt_of_le hmost (Nat.le_trans hstep hleast)) (Nat.lt_asymm h)

namespace Journal

theorem counterText_digits (n : Nat) : ∀ c ∈ counterText n, c.isDigit = true := by
  intro c hc
  unfold counterText at hc
  rcases List.mem_append.mp hc with hzero | hdigit
  · rw [List.eq_of_mem_replicate hzero]
    decide
  · exact Nat.isDigit_of_mem_toDigits (by decide) (by decide) hdigit

theorem ofDigitChars_counterText (n : Nat) : Nat.ofDigitChars 10 (counterText n) 0 = n := by
  unfold counterText
  simp [Nat.ofDigitChars_append]

theorem length_counterText {n : Nat} (h : n < 10000) : (counterText n).length = 4 := by
  have hlength : (Nat.toDigits 10 n).length ≤ 4 :=
    (Nat.length_toDigits_le_iff (by decide) (by decide)).mpr h
  unfold counterText
  simp
  omega

theorem counterText_lt {m n : Nat} (hmn : m < n) (hn : n < 10000) :
    counterText m < counterText n := by
  refine lt_of_ofDigitChars_lt (n := 0) (counterText_digits m) (counterText_digits n) ?_ ?_
  · rw [length_counterText hn, length_counterText (by omega)]
  · rwa [ofDigitChars_counterText, ofDigitChars_counterText]

end Journal

/-! ## Seconds -/

namespace Moment

/-- A date and six characters for the time of day. -/
def Dated (s : String) : Prop :=
  ∃ date clock : List Char, s.toList = date ++ '_' :: clock ∧ '_' ∉ date ∧ clock.length = 6

theorem underscore_not_in_padded (width n : Nat) : '_' ∉ (Calendar.padded width n).toList := by
  unfold Calendar.padded
  simp [Nat.underscore_not_in_toDigits]

theorem length_padded {width n : Nat} (hwidth : 0 < width) (h : n < 10 ^ width) :
    (Calendar.padded width n).toList.length = width := by
  have hdigits : (Nat.toDigits 10 n).length ≤ width :=
    (Nat.length_toDigits_le_iff (by decide) hwidth).mpr h
  unfold Calendar.padded
  simp
  omega

theorem dated_ofMillis (n : Nat) : Dated (ofMillis n).second := by
  have hhour := length_padded (show 0 < 2 by decide) (show n / 3600000 % 24 < 10 ^ 2 by omega)
  have hminute := length_padded (show 0 < 2 by decide) (show n / 60000 % 60 < 10 ^ 2 by omega)
  have hsecond := length_padded (show 0 < 2 by decide) (show n / 1000 % 60 < 10 ^ 2 by omega)
  let d := Calendar.Date.ofDays (n / 86400000)
  refine ⟨(Calendar.padded 4 d.year).toList ++ (Calendar.padded 2 d.month).toList ++
    (Calendar.padded 2 d.day).toList, (Calendar.padded 2 (n / 3600000 % 24)).toList ++
    (Calendar.padded 2 (n / 60000 % 60)).toList ++ (Calendar.padded 2 (n / 1000 % 60)).toList,
    ?_, ?_, ?_⟩
  · simp [ofMillis, d]
  · simp [underscore_not_in_padded]
  · simp only [List.length_append]
    omega

theorem date_eq_takeWhile {date clock : List Char} (h : '_' ∉ date) :
    (date ++ '_' :: clock).takeWhile (· ≠ '_') = date := by
  rw [List.takeWhile_append_of_pos]
  · simp
  · intro c hc
    simp
    rintro rfl
    exact h hc

theorem eq_of_prefix {s t : String} (hs : Dated s) (ht : Dated t) (h : s.toList <+: t.toList) :
    s = t := by
  obtain ⟨date, clock, hsecond, hdate, hclock⟩ := hs
  obtain ⟨date', clock', hsecond', hdate', hclock'⟩ := ht
  obtain ⟨rest, hrest⟩ := h
  have heq : date ++ '_' :: (clock ++ rest) = date' ++ '_' :: clock' := by
    rw [← hsecond', ← hrest, hsecond, List.append_assoc, List.cons_append]
  have hsame : date = date' := by
    rw [← date_eq_takeWhile hdate, heq, date_eq_takeWhile hdate']
  rw [hsame] at heq
  have hclocks := List.tail_eq_of_cons_eq (List.append_cancel_left heq)
  have hnone : rest = [] := by
    have hlength := congrArg List.length hclocks
    rw [List.length_append] at hlength
    exact List.eq_nil_of_length_eq_zero (by omega)
  rw [hnone, List.append_nil] at hrest
  exact String.ext hrest

end Moment

/-! ## Names -/

theorem append_lt_append {cs ds : List Char} (h : cs < ds) (hleads : ¬ cs <+: ds)
    (xs ys : List Char) : cs ++ xs < ds ++ ys := by
  induction cs generalizing ds with
  | nil => exact absurd List.nil_prefix hleads
  | cons c cs ih =>
    rcases ds with _ | ⟨d, ds⟩
    · exact absurd h (List.not_lt_nil _)
    · rw [List.cons_append, List.cons_append, List.cons_lt_cons_iff]
      rcases List.cons_lt_cons_iff.mp h with hlt | ⟨rfl, hrest⟩
      · exact Or.inl hlt
      · exact Or.inr ⟨rfl, ih hrest fun hp => hleads ((List.prefix_cons_inj c).mpr hp)⟩

theorem append_lt_append_of_length {cs ds : List Char} (h : cs < ds)
    (hlength : cs.length = ds.length) (xs ys : List Char) : cs ++ xs < ds ++ ys := by
  refine append_lt_append h (fun hleads => ?_) xs ys
  rw [hleads.eq_of_length hlength] at h
  exact List.lt_irrefl _ h

namespace Journal

theorem ownsName_fileName (second : String) (counter : UInt32) :
    ownsName (fileName second counter) = true := by
  unfold ownsName fileName
  rw [String.toList_ofList, Bool.and_eq_true, List.isPrefixOf_iff_prefix,
    List.isSuffixOf_iff_suffix, List.append_assoc]
  refine ⟨List.prefix_append _ _, ?_⟩
  exact ⟨namePrefix ++ second.toList ++ '_' :: counterText counter.toNat, by simp⟩

theorem fileName_lt_of_second {s t : String} (hs : Moment.Dated s) (ht : Moment.Dated t)
    (hst : s < t) (m n : UInt32) : fileName s m < fileName t n := by
  change (fileName s m).toList < (fileName t n).toList
  unfold fileName
  rw [String.toList_ofList, String.toList_ofList, List.append_assoc, List.append_assoc]
  apply List.append_left_lt
  refine append_lt_append hst (fun hleads => ?_) _ _
  rw [Moment.eq_of_prefix hs ht hleads] at hst
  exact Std.lt_irrefl hst

theorem fileName_lt_of_counter (s : String) {m n : UInt32}
    (h : counterText m.toNat ++ extension < counterText n.toNat ++ extension) :
    fileName s m < fileName s n := by
  change (fileName s m).toList < (fileName s n).toList
  unfold fileName
  rw [String.toList_ofList, String.toList_ofList]
  apply List.append_left_lt
  rw [List.cons_lt_cons_iff]
  exact Or.inr ⟨rfl, h⟩

/-- A name made later, with a larger counter, stands later. -/
theorem fileName_lt {s t : String} (hs : Moment.Dated s) (ht : Moment.Dated t) (hst : s ≤ t)
    {m n : UInt32} (hmn : m.toNat < n.toNat) (hn : n.toNat < 10000) :
    fileName s m < fileName t n := by
  by_cases heq : s = t
  · rw [heq]
    apply fileName_lt_of_counter
    apply append_lt_append_of_length (counterText_lt hmn hn)
    rw [length_counterText hn, length_counterText (by omega)]
  · exact fileName_lt_of_second hs ht (Std.lt_of_le_of_ne hst heq) m n

end Journal

end StickArbiter
