import Mathlib.Data.List.TakeWhile
import Mathlib.Order.Nat
import StickArbiter.Proofs.FileNames
import StickArbiter.Proofs.ReadBack
import StickArbiter.Wire.Read

/-!
# Numbers read back in place

Whether the text of a single-precision number gives it back is left open. If it does alone, then
also inside an object.
-/

namespace StickArbiter

/-! ## Characters of numbers -/

namespace Decimal.Layout

variable {p : Char → Prop} (n : Layout)

theorem forall_mem_positionalText {digits : List Char} (hdigits : ∀ c ∈ digits, p c)
    (hzero : p '0') (hpoint : p '.') (exponent : Int) :
    ∀ c ∈ n.positionalText digits exponent, p c := by
  have hzeros : ∀ k, ∀ c ∈ List.replicate k '0', p c := fun k c hc =>
    List.eq_of_mem_replicate hc ▸ hzero
  unfold positionalText
  simp only []
  split
  · rw [List.forall_mem_append, List.forall_mem_append]
    refine ⟨⟨hdigits, hzeros _⟩, ?_⟩
    split
    · exact List.forall_mem_cons.mpr ⟨hpoint, List.forall_mem_singleton.mpr hzero⟩
    · exact nofun
  · split
    · rw [List.forall_mem_append, List.forall_mem_cons]
      exact ⟨fun c hc => hdigits c (List.mem_of_mem_take hc), hpoint,
        fun c hc => hdigits c (List.mem_of_mem_drop hc)⟩
    · rw [List.forall_mem_cons, List.forall_mem_cons, List.forall_mem_append]
      exact ⟨hzero, hpoint, hzeros _, hdigits⟩

theorem forall_mem_exponentText {digits : List Char} (hdigits : ∀ c ∈ digits, p c)
    (hdigit : ∀ c, c.isDigit = true → p c) (hmarks : ∀ c ∈ ['.', '-', '+', 'e'], p c)
    (first : Int) : ∀ c ∈ n.exponentText digits first, p c := by
  simp only [List.forall_mem_cons] at hmarks
  obtain ⟨hpoint, hminus, hplus, hmark, -⟩ := hmarks
  unfold exponentText
  simp only []
  rw [List.forall_mem_append, List.forall_mem_append, List.forall_mem_cons,
    List.forall_mem_append]
  refine ⟨⟨fun c hc => hdigits c (List.mem_of_mem_take hc), ?_⟩, hmark, ?_,
    fun c hc => hdigit c (Nat.isDigit_of_mem_toDigits (by decide) (by decide) hc)⟩
  · split
    · exact nofun
    · exact List.forall_mem_cons.mpr ⟨hpoint, fun c hc => hdigits c (List.mem_of_mem_drop hc)⟩
  · split_ifs
    · exact List.forall_mem_singleton.mpr hminus
    · exact List.forall_mem_singleton.mpr hplus
    · exact nofun

theorem forall_mem_write (hdigit : ∀ c, c.isDigit = true → p c)
    (hmarks : ∀ c ∈ ['.', '-', '+', 'e'], p c) (hnan : ∀ c ∈ n.notANumber.toList, p c)
    (hinfinity : ∀ c ∈ n.infinity.toList, p c) (b : Binary) : ∀ c ∈ n.write b, p c := by
  have hdigits : ∀ k, ∀ c ∈ Nat.toDigits 10 k, p c := fun k c hc =>
    hdigit c (Nat.isDigit_of_mem_toDigits (by decide) (by decide) hc)
  have hsign : ∀ negative : Bool, ∀ c ∈ (if negative then ['-'] else []), p c := by
    intro negative
    split
    · exact List.forall_mem_singleton.mpr (hmarks '-' (by decide))
    · exact nofun
  have hmagnitude : ∀ digits exponent, ∀ c ∈ n.magnitudeText digits exponent, p c := by
    intro digits exponent
    unfold magnitudeText
    simp only []
    split_ifs
    · exact n.forall_mem_positionalText (hdigits _) (hdigit '0' rfl) (hmarks '.' (by decide)) _
    · exact n.forall_mem_exponentText (hdigits _) hdigit hmarks _
  cases b with
  | notANumber => exact hnan
  | infinite negative => exact List.forall_mem_append.mpr ⟨hsign negative, hinfinity⟩
  | finite negative mantissa exponent edge =>
    exact List.forall_mem_append.mpr ⟨hsign negative, hmagnitude _ _⟩

end Decimal.Layout

namespace Json

theorem Closes.startsWithDigit {rest : List Char} (h : Closes rest) :
    startsWithDigit rest = false := by
  cases rest with
  | nil => rfl
  | cons c more => rcases h c rfl with rfl | rfl <;> rfl

theorem isBlank_of_isDigit {c : Char} (hc : c.isDigit = true) : Reader.isBlank c = false := by
  by_contra hblank
  simp only [Reader.isBlank, Bool.not_eq_false, Bool.or_eq_true, decide_eq_true_eq] at hblank
  rcases hblank with ((rfl | rfl) | rfl) | rfl <;> cases hc

/-! ## Natural numbers -/

theorem gather_of_no_digit {text : List Char} (h : startsWithDigit text = false)
    (significand count : Nat) :
    gather significand count text = (significand, count, text) := by
  cases text with
  | nil => rfl
  | cons c rest =>
    have hc : c.isDigit = false := h
    exact if_neg (by simp [hc])

theorem gather_of_digit {c : Char} (hc : c.isDigit = true) {significand : Nat}
    (hnext : 10 * significand + (c.toNat - 48) < 2 ^ 64) (count : Nat) (rest : List Char) :
    gather significand count (c :: rest) =
      gather (10 * significand + (c.toNat - 48)) (count + 1) rest :=
  if_pos (by rw [hc]; exact decide_eq_true hnext)

theorem gather_cons_cases (c : Char) (significand count : Nat) :
    (∀ rest, gather significand count (c :: rest) =
      gather (10 * significand + (c.toNat - 48)) (count + 1) rest) ∨
    ∀ rest, gather significand count (c :: rest) = (significand, count, c :: rest) := by
  by_cases hc : c.isDigit = true
  · by_cases hnext : 10 * significand + (c.toNat - 48) < 2 ^ 64
    · exact .inl fun rest => gather_of_digit hc hnext count rest
    · exact .inr fun _ => if_neg (by rw [hc]; exact mt of_decide_eq_true hnext)
  · exact .inr fun _ => if_neg (by simp [hc])

theorem gather_append {ds rest : List Char} (hdigits : ∀ c ∈ ds, c.isDigit = true)
    (hrest : startsWithDigit rest = false) {significand : Nat} (count : Nat)
    (hfit : Nat.ofDigitChars 10 ds significand < 2 ^ 64) :
    gather significand count (ds ++ rest) =
      (Nat.ofDigitChars 10 ds significand, count + ds.length, rest) := by
  induction ds generalizing significand count with
  | nil => exact gather_of_no_digit hrest significand count
  | cons c ds ih =>
    rw [List.forall_mem_cons] at hdigits
    have hnext : 10 * significand + (c.toNat - 48) < 2 ^ 64 :=
      calc 10 * significand + (c.toNat - 48)
        _ ≤ (10 * significand + (c.toNat - 48)) * 10 ^ ds.length :=
          Nat.le_mul_of_pos_right _ (Nat.pow_pos (by decide))
        _ ≤ _ := (ofDigitChars_bounds hdigits.2 _).1
        _ < 2 ^ 64 := hfit
    rw [List.cons_append, gather_of_digit hdigits.1 hnext]
    exact (ih hdigits.2 (count + 1) hfit).trans
      (by rw [List.length_cons, Nat.add_assoc, Nat.add_comm 1, Nat.ofDigitChars_cons])

theorem isDigit_of_mem_naturalText {n : Nat} {c : Char} (hc : c ∈ naturalText n) :
    c.isDigit = true := Nat.isDigit_of_mem_toDigits (by decide) (by decide) hc

theorem naturalText_eq_cons (n : Nat) : ∃ c cs, naturalText n = c :: cs ∧ c.isDigit = true := by
  obtain ⟨c, cs, h⟩ := List.exists_cons_of_ne_nil (Nat.toDigits_ne_nil : naturalText n ≠ [])
  exact ⟨c, cs, h, isDigit_of_mem_naturalText (h ▸ List.mem_cons_self)⟩

theorem naturalText_eq_zero {n : Nat} {ds : List Char} (h : naturalText n = '0' :: ds) :
    n = 0 ∧ ds = [] := by
  have hdigits : ∀ c ∈ ds, c.isDigit = true := fun c hc =>
    isDigit_of_mem_naturalText (h ▸ List.mem_cons_of_mem '0' hc)
  have hvalue : n = Nat.ofDigitChars 10 ds 0 := by
    rw [← Nat.ofDigitChars_toDigits (b := 10) (n := n) (by decide) (by decide)]
    change Nat.ofDigitChars 10 (naturalText n) 0 = _
    rw [h]
    rfl
  have hds : ds = [] := by
    by_contra hne
    -- The digits behind the zero have the same value, so the text would not be the shortest.
    have hfew : (naturalText n).length ≤ ds.length := by
      rw [naturalText, Nat.length_toDigits_le_iff (by decide) (List.length_pos_iff.mpr hne), hvalue]
      simpa using (ofDigitChars_bounds hdigits 0).2
    rw [h, List.length_cons] at hfew
    omega
  rw [hds] at hvalue
  exact ⟨hvalue, hds⟩

namespace Reader

variable {α β : Type} {r : Reader α} {f : α → Reader β} {a : α} {text rest left : List Char}

theorem skipDigits_of_closes (h : startsWithDigit rest = false) :
    skipDigits rest = .ok (0, rest) := by
  cases rest with
  | nil => rfl
  | cons c more =>
    have hc : c.isDigit = false := h
    simp [skipDigits, hc]

theorem afterWhole_of_closes (h : Closes rest) (n : Nat) :
    afterWhole false n 0 rest = .ok (.natural n, rest) := by
  cases rest with
  | nil => rfl
  | cons c more => rcases h c rfl with rfl | rfl <;> rfl

theorem takes_number {n : Nat} (hn : n < 2 ^ 64) :
    Takes number (naturalText n) (.natural n) := by
  intro rest hrest
  have hvalue : Nat.ofDigitChars 10 (naturalText n) 0 = n :=
    Nat.ofDigitChars_toDigits (by decide) (by decide)
  have hgather := gather_append (fun _ => isDigit_of_mem_naturalText) hrest.startsWithDigit 0
    (hvalue.trans_lt hn)
  rw [hvalue] at hgather
  obtain ⟨c, cs, htext, hc⟩ := naturalText_eq_cons n
  have hminus : c ≠ '-' := by
    rintro rfl
    cases hc
  have hmagnitude : magnitude false (naturalText n ++ rest) = .ok (.natural n, rest) := by
    rw [magnitude, bind_ok rfl, htext]
    simp only [List.cons_append, List.head?_cons]
    by_cases hzero : c = '0'
    · -- Zero is read by a branch of its own, which refuses any digit behind it.
      rw [hzero] at htext
      obtain ⟨rfl, rfl⟩ := naturalText_eq_zero htext
      rw [if_pos hzero, bind_ok rfl, bind_ok rfl]
      simp only [List.drop_succ_cons, List.drop_zero, List.nil_append, hrest.startsWithDigit]
      exact afterWhole_of_closes hrest 0
    · rw [if_neg hzero, if_pos hc, ← List.cons_append, ← htext]
      refine (bind_ok (congrArg Except.ok (?_ : _ = (n, rest)))).trans ?_
      · simp only [hgather]
      · rw [bind_ok (skipDigits_of_closes hrest.startsWithDigit)]
        exact afterWhole_of_closes hrest n
  rw [number, bind_ok rfl]
  rw [htext] at hmagnitude ⊢
  simpa [hminus] using hmagnitude

theorem takes_naturalBelow {n limit : Nat} (hn : n < limit) (hlimit : limit ≤ 2 ^ 64)
    (expected : String) : Takes (naturalBelow limit expected) (naturalText n) n := by
  intro rest hrest
  have hread := takes_number (hn.trans_le hlimit) rest hrest
  obtain ⟨c, cs, htext, hc⟩ := naturalText_eq_cons n
  have hstart : isNumberStart c = true := by simp [isNumberStart, hc]
  rw [htext] at hread ⊢
  rw [naturalBelow, List.cons_append, atValue_cons (isBlank_of_isDigit hc), if_pos hstart,
    ← List.cons_append, bind_ok hread]
  simp only [hn, if_true]
  rfl

theorem takes_byte (b : UInt8) : Takes byte (naturalText b.toNat) b := by
  have h := (takes_naturalBelow b.toNat_lt (by decide) "u8").bind_pure Nat.toUInt8
  rwa [Nat.toUInt8, UInt8.ofNat_toNat] at h

/-! ## Reading that stops behind a value -/

/-- What a reader gives for a text it gives also when the text goes on. -/
def Stays (r : Reader α) (text : List Char) : Prop :=
  ∀ a left, r text = .ok (a, left) →
    left <:+ text ∧ ∀ rest, Closes rest → r (text ++ rest) = .ok (a, left ++ rest)

theorem bind_eq_ok {b : β} (h : (r >>= f) text = .ok (b, rest)) :
    ∃ a left, r text = .ok (a, left) ∧ f a left = .ok (b, rest) := by
  change (r text >>= fun p => f p.1 p.2) = _ at h
  cases hr : r text with
  | error e =>
    rw [hr] at h
    cases h
  | ok p =>
    rw [hr] at h
    exact ⟨p.1, p.2, rfl, h⟩

theorem Stays.bind (hr : Stays r text) (hf : ∀ a left, r text = .ok (a, left) → Stays (f a) left) :
    Stays (r >>= f) text := by
  intro b left' h
  obtain ⟨a, left, hread, hnext⟩ := bind_eq_ok h
  obtain ⟨hsuffix, hmore⟩ := hr a left hread
  obtain ⟨hsuffix', hmore'⟩ := hf a left hread b left' hnext
  exact ⟨hsuffix'.trans hsuffix, fun rest hrest =>
    (bind_ok (hmore rest hrest)).trans (hmore' rest hrest)⟩

theorem stays_pure (a : α) (text : List Char) : Stays (pure a) text := by
  rintro _ _ ⟨⟩
  exact ⟨List.suffix_rfl, fun _ _ => rfl⟩

theorem stays_halt (m : Malformed) (text : List Char) : Stays (halt (α := α) m) text := nofun

theorem stays_haltAhead (m : Malformed) (text : List Char) :
    Stays (haltAhead (α := α) m) text := nofun

theorem stays_take (c : Char) (cs : List Char) : Stays take (c :: cs) := by
  rintro _ _ ⟨⟩
  exact ⟨List.suffix_cons c cs, fun _ _ => rfl⟩

theorem stays_modifyGet {g : List Char → β × List Char} (hleft : (g text).2 <:+ text)
    (hmore : ∀ rest, Closes rest → g (text ++ rest) = ((g text).1, (g text).2 ++ rest)) :
    Stays (modifyGet g) text := by
  intro a left h
  have hg : g text = (a, left) := Except.ok.inj h
  rw [hg] at hleft hmore
  exact ⟨hleft, fun rest hrest => congrArg Except.ok (hmore rest hrest)⟩

theorem stays_peek {f : Option Char → Reader α}
    (hcons : ∀ c cs, text = c :: cs → Stays (f (some c)) text)
    (hnil : ∀ a left, f none [] = .ok (a, left) →
      Stays (f none) [] ∧ ∀ c, c = ',' ∨ c = '\x7d' → f (some c) = f none) :
    Stays (peek >>= f) text := by
  cases text with
  | cons c cs => exact hcons c cs rfl
  | nil =>
    intro a left h
    obtain ⟨hstays, hsame⟩ := hnil a left h
    obtain ⟨hleft, hmore⟩ := hstays a left h
    refine ⟨hleft, fun rest hrest => ?_⟩
    cases rest with
    | nil => exact hmore [] closes_nil
    | cons c more =>
      change f (some c) (c :: more) = _
      rw [hsame c (hrest c rfl)]
      exact hmore (c :: more) hrest

theorem stays_get {f : List Char → Reader α} (h : Stays (f text) text)
    (hsame : ∀ rest, Closes rest → f (text ++ rest) = f text) : Stays (get >>= f) text := by
  intro a left hread
  obtain ⟨hleft, hmore⟩ := h a left hread
  refine ⟨hleft, fun rest hrest => ?_⟩
  change f (text ++ rest) (text ++ rest) = _
  rw [hsame rest hrest]
  exact hmore rest hrest

theorem startsWithDigit_append (h : Closes rest) :
    startsWithDigit (text ++ rest) = startsWithDigit text := by
  cases text with
  | nil => exact h.startsWithDigit
  | cons c cs => rfl

theorem stays_skipDigits (text : List Char) : Stays skipDigits text := by
  rintro _ _ ⟨⟩
  refine ⟨List.dropWhile_suffix _, fun rest hrest => ?_⟩
  have hsame : (text ++ rest).takeWhile Char.isDigit = text.takeWhile Char.isDigit ∧
      (text ++ rest).dropWhile Char.isDigit = text.dropWhile Char.isDigit ++ rest := by
    induction text with
    | nil =>
      cases rest with
      | nil => exact ⟨rfl, rfl⟩
      | cons c more =>
        have hc : c.isDigit = false := hrest.startsWithDigit
        simp [hc]
    | cons c cs ih => cases hc : c.isDigit <;> simp [hc, ih]
  change Except.ok (_, _) = _
  rw [hsame.1, hsame.2]

theorem gather_more (h : startsWithDigit rest = false) (significand count : Nat)
    (text : List Char) :
    gather significand count (text ++ rest) =
      ((gather significand count text).1, (gather significand count text).2.1,
        (gather significand count text).2.2 ++ rest) := by
  induction text generalizing significand count with
  | nil => exact gather_of_no_digit h significand count
  | cons c cs ih =>
    rw [List.cons_append]
    rcases gather_cons_cases c significand count with hmore | hstop
    · rw [hmore, hmore, ih]
    · rw [hstop, hstop, List.cons_append]

theorem gather_suffix (significand count : Nat) (text : List Char) :
    (gather significand count text).2.2 <:+ text := by
  induction text generalizing significand count with
  | nil => exact List.suffix_rfl
  | cons c cs ih =>
    rcases gather_cons_cases c significand count with hmore | hstop
    · rw [hmore]
      exact (ih _ _).trans (List.suffix_cons c cs)
    · simp [hstop]

theorem exponentDigits_cons_cases (c : Char) (e : Nat) :
    (∀ rest, exponentDigits e (c :: rest) = (some e, c :: rest)) ∨
    (∀ rest, exponentDigits e (c :: rest) = exponentDigits (10 * e + (c.toNat - 48)) rest) ∨
    ∀ rest, exponentDigits e (c :: rest) = (none, rest) := by
  by_cases hc : c.isDigit = true
  · have hdigit : ¬(!c.isDigit) = true := by simp [hc]
    by_cases hnext : 10 * e + (c.toNat - 48) < 2 ^ 31
    · exact .inr (.inl fun _ => (if_neg hdigit).trans (if_pos hnext))
    · exact .inr (.inr fun _ => (if_neg hdigit).trans (if_neg hnext))
  · exact .inl fun _ => if_pos (by simpa using hc)

theorem exponentDigits_more (h : startsWithDigit rest = false) (e : Nat) (text : List Char) :
    exponentDigits e (text ++ rest) =
      ((exponentDigits e text).1, (exponentDigits e text).2 ++ rest) := by
  induction text generalizing e with
  | nil =>
    cases rest with
    | nil => rfl
    | cons c more =>
      have hc : c.isDigit = false := h
      exact if_pos (by simp [hc])
  | cons c cs ih =>
    rw [List.cons_append]
    rcases exponentDigits_cons_cases c e with hstop | hmore | hbeyond
    · rw [hstop, hstop, List.cons_append]
    · rw [hmore, hmore, ih]
    · rw [hbeyond, hbeyond]

theorem exponentDigits_suffix (e : Nat) (text : List Char) :
    (exponentDigits e text).2 <:+ text := by
  induction text generalizing e with
  | nil => exact List.suffix_rfl
  | cons c cs ih =>
    rcases exponentDigits_cons_cases c e with hstop | hmore | hbeyond
    · simp [hstop]
    · rw [hmore]
      exact (ih _).trans (List.suffix_cons c cs)
    · rw [hbeyond]
      exact List.suffix_cons c cs

variable (negative : Bool) (significand : Nat) (exponent : Int)

theorem stays_real (text : List Char) : Stays (real negative significand exponent) text := by
  unfold real
  split
  · exact stays_pure _ _
  · exact stays_halt _ _

theorem stays_exponentSign (text : List Char) : Stays exponentSign text := by
  refine stays_peek ?_ ?_
  · rintro c cs rfl
    split
    · exact (stays_take c cs).bind fun _ _ _ => stays_pure _ _
    · exact (stays_take c cs).bind fun _ _ _ => stays_pure _ _
    · exact stays_pure _ _
  · intro _ _ _
    refine ⟨stays_pure _ _, ?_⟩
    rintro c (rfl | rfl) <;> rfl

theorem stays_exponentPart (c : Char) (cs : List Char) :
    Stays (exponentPart negative significand exponent) (c :: cs) := by
  refine (stays_take c cs).bind fun _ text _ => (stays_exponentSign text).bind fun below text _ =>
    stays_peek ?_ nofun
  rintro d ds rfl
  simp only []
  split
  · exact stays_haltAhead _ _
  · refine (stays_modifyGet (exponentDigits_suffix 0 _)
      fun rest hrest => exponentDigits_more hrest.startsWithDigit 0 _).bind fun e text _ => ?_
    cases e with
    | some e => exact stays_real _ _ _ _
    | none =>
      simp only []
      split
      · exact stays_halt _ _
      · exact (stays_skipDigits text).bind fun _ _ _ => stays_pure _ _

theorem stays_realEnd (text : List Char) :
    Stays (realEnd negative significand exponent) text := by
  refine stays_peek ?_ ?_
  · rintro c cs rfl
    simp only []
    split
    · exact stays_exponentPart _ _ _ c cs
    · exact stays_real _ _ _ _
  · intro _ _ _
    refine ⟨stays_real _ _ _ _, ?_⟩
    rintro c (rfl | rfl) <;> rfl

theorem stays_placesPart (c : Char) (cs : List Char) :
    Stays (placesPart negative significand exponent) (c :: cs) := by
  refine (stays_take c cs).bind fun _ text _ => ?_
  refine Stays.bind (stays_modifyGet ?_ ?_) fun p text _ =>
    (stays_skipDigits text).bind fun dropped text _ => ?_
  · exact gather_suffix significand 0 text
  · intro rest hrest
    simp only [gather_more hrest.startsWithDigit]
  · split
    · exact stays_peek (fun _ _ _ => stays_haltAhead _ _) nofun
    · exact stays_realEnd _ _ _ _

theorem stays_afterWhole (extra : Nat) (text : List Char) :
    Stays (afterWhole negative significand extra) text := by
  have hend : ∀ text, Stays (if extra = 0 then pure (integer negative significand)
      else real negative significand extra) text := by
    intro text
    split
    · exact stays_pure _ _
    · exact stays_real _ _ _ _
  refine stays_peek ?_ ?_
  · rintro c cs rfl
    simp only []
    split_ifs
    · exact stays_placesPart _ _ _ c cs
    · exact stays_exponentPart _ _ _ c cs
    · exact stays_pure _ _
    · exact stays_real _ _ _ _
  · -- A comma or a brace is none of the marks that a number goes on with.
    intro _ _ _
    refine ⟨hend _, ?_⟩
    rintro c (rfl | rfl) <;> rfl

theorem stays_magnitude (text : List Char) : Stays (magnitude negative) text := by
  refine stays_peek ?_ nofun
  rintro c cs rfl
  simp only []
  split_ifs
  · refine (stays_take c cs).bind fun _ text _ => stays_get ?_ fun rest hrest => ?_
    · split
      · exact stays_haltAhead _ _
      · exact stays_afterWhole _ _ _ _
    · rw [startsWithDigit_append hrest]
  · refine Stays.bind (stays_modifyGet ?_ ?_) fun n text _ =>
      (stays_skipDigits text).bind fun extra text _ => stays_afterWhole _ _ _ _
    · exact gather_suffix 0 0 _
    · intro rest hrest
      simp only [gather_more hrest.startsWithDigit]
  · exact stays_haltAhead _ _

theorem stays_number (text : List Char) : Stays number text := by
  refine stays_peek ?_ nofun
  rintro c cs rfl
  split
  · exact (stays_take c cs).bind fun _ text _ => stays_magnitude _ _
  · exact stays_magnitude _ _

/-! ## Single-precision numbers -/

/-- The text of the number, read on its own, gives the number. -/
def ReadsBack (x : Float32) : Prop := run single (singleText x) = .ok x

theorem wrongType_ne_ok (expected : String) {p : α × List Char} :
    wrongType expected text ≠ .ok p := by
  intro h
  unfold wrongType at h
  obtain ⟨c, left, -, h⟩ := bind_eq_ok h
  split at h
  · cases h
  · cases h
  · obtain ⟨found, left, -, h⟩ := bind_eq_ok h
    cases h
  · cases h

theorem isBlank_of_mem_singleText {x : Float32} {c : Char} (hc : c ∈ singleText x) :
    isBlank c = false := by
  have hnull : ∀ c ∈ nullText, isBlank c = false := by simp [nullText, isBlank]
  have hmarks : ∀ c ∈ ['.', '-', '+', 'e'], isBlank c = false := by simp [isBlank]
  unfold singleText at hc
  split at hc
  · exact hnull c hc
  · exact singleLayout.forall_mem_write (fun _ => isBlank_of_isDigit) hmarks hnull hnull _ c hc

theorem of_run_eq_ok (h : run r text = .ok a) :
    ∃ left, r text = .ok (a, left) ∧ ∀ c ∈ left, isBlank c = true := by
  unfold run at h
  simp only [] at h
  split at h
  next b _ hall =>
    cases h
    obtain ⟨b, left, hread, hend⟩ := bind_eq_ok hall
    obtain ⟨d, left', hpeek, hend⟩ := bind_eq_ok hend
    cases hpeek
    split at hend
    · cases hend
    next hnone =>
      cases hend
      refine ⟨left, hread, List.dropWhile_eq_nil_iff.mp ?_⟩
      simpa using hnone
  next => cases h

theorem ReadsBack.number {x : Float32} (h : ReadsBack x) :
    ∃ c cs, singleText x = c :: cs ∧ isBlank c = false ∧ isNumberStart c = true ∧
      ∃ n : Number, n.toFloat32 = x ∧ Takes number (singleText x) n := by
  obtain ⟨left, hsingle, hleft⟩ := of_run_eq_ok h
  have hblank : ∀ c ∈ singleText x, isBlank c = false := fun c => isBlank_of_mem_singleText
  cases htext : singleText x with
  | nil =>
    rw [htext] at hsingle
    cases hsingle
  | cons c cs =>
    rw [htext] at hsingle hblank
    have hc := hblank c List.mem_cons_self
    rw [single, atValue_cons hc] at hsingle
    split at hsingle
    next hstart =>
      obtain ⟨n, left', hnumber, hx⟩ := bind_eq_ok hsingle
      cases hx
      obtain ⟨hsuffix, hmore⟩ := stays_number _ n left hnumber
      have hnone : left = [] := by
        refine List.eq_nil_iff_forall_not_mem.mpr fun d hd => ?_
        exact Bool.false_ne_true ((hblank d (hsuffix.mem hd)).symm.trans (hleft d hd))
      subst hnone
      exact ⟨c, cs, rfl, hc, hstart, n, rfl, hmore⟩
    next => exact absurd hsingle (wrongType_ne_ok _)

theorem ReadsBack.takes_single {x : Float32} (h : ReadsBack x) :
    Takes single (singleText x) x := by
  obtain ⟨c, cs, htext, hc, hstart, n, rfl, hnumber⟩ := h.number
  rw [htext] at hnumber ⊢
  intro rest hrest
  rw [single, List.cons_append, atValue_cons hc, if_pos hstart, ← List.cons_append,
    bind_ok (hnumber rest hrest)]
  rfl

theorem ReadsBack.takes_anyValue {x : Float32} (h : ReadsBack x) (around : Nat) :
    ∃ v, Wire.singleOf v = .ok x ∧ Takes (anyValue around) (singleText x) v := by
  obtain ⟨c, cs, htext, hc, hstart, n, hn, hnumber⟩ := h.number
  have hfirst : c ≠ '[' ∧ c ≠ '\x7b' ∧ c ≠ 'n' ∧ c ≠ 't' ∧ c ≠ 'f' := by
    refine ⟨?_, ?_, ?_, ?_, ?_⟩ <;>
    · rintro rfl
      cases hstart
  obtain ⟨hlist, hobject, hn', ht, hf⟩ := hfirst
  rw [htext] at hnumber ⊢
  refine ⟨n.found, ?_, Reader.takes_anyValue around hc hlist hobject fun rest hrest => ?_⟩
  · rw [← hn]
    cases n <;> rfl
  · rw [scalar, if_neg hn', if_neg ht, if_neg hf, if_pos hstart]
    exact bind_ok (hnumber rest hrest)

end Reader

end Json

end StickArbiter
