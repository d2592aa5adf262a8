import Mathlib.Order.Bounds.Basic
import StickArbiter.Arbiter.Cycle

/-!
# What a selector selects

Selecting settles a setpoint: it shows the last sample of a live slot, or none is live. A cycle
selects anew after each sample.
-/

namespace StickArbiter

def Feed.reading? (f : Feed) (slot : Nat) : Option Reading := (f.sample slot).map (⟨·, f.now⟩)

/-- Whether one of the first `n` slots has a new sample. -/
def Feed.Offers (f : Feed) (n : Nat) : Prop := ∃ k < n, (f.sample k).isSome = true

theorem Feed.Offers.mono {f : Feed} {m n : Nat} (h : f.Offers m) (hmn : m ≤ n) : f.Offers n := by
  obtain ⟨k, hk, hx⟩ := h
  exact ⟨k, by omega, hx⟩

theorem Feed.Offers.of_succ {f : Feed} {n : Nat} (h : f.Offers (n + 1))
    (hn : f.sample n = none) : f.Offers n := by
  obtain ⟨k, hk, hx⟩ := h
  refine ⟨k, ?_, hx⟩
  by_contra hkn
  have : k = n := by omega
  subst this
  simp [hn] at hx

namespace Selector

/-! ## Live slots -/

theorem isLive_iff (s : Selector) (now : Instant) (slot : Nat) :
    s.isLive now slot = true ↔
      ∃ r, s.reading? slot = some r ∧ admits s.mode s.timeout now r = true := by
  unfold isLive
  cases s.reading? slot <;> simp

theorem isLive_congr {s t : Selector} (now : Instant) (slot : Nat) (hm : s.mode = t.mode)
    (ht : s.timeout = t.timeout) (hr : s.reading? slot = t.reading? slot) :
    s.isLive now slot = t.isLive now slot := by
  rw [isLive, isLive, hm, ht, hr]

theorem lowestLive?_eq_some_iff (s : Selector) (now : Instant) (slot : Nat) :
    s.lowestLive? now = some slot ↔ IsLeast {k | s.isLive now k = true} slot := by
  rw [lowestLive?, List.find?_range_eq_some]
  constructor
  · rintro ⟨hlive, -, hlow⟩
    refine ⟨hlive, fun k hk => ?_⟩
    by_contra hlt
    have := hlow k (by omega)
    simp_all
  · rintro ⟨hlive, hlow⟩
    refine ⟨hlive, List.mem_range.mpr (lt_slotCount_of_isLive hlive), fun k hk => ?_⟩
    by_contra hk'
    have : slot ≤ k := hlow (by simpa using hk')
    omega

theorem lowestLive?_eq_none_iff (s : Selector) (now : Instant) :
    s.lowestLive? now = none ↔ ∀ k, s.isLive now k = false := by
  rw [lowestLive?, List.find?_eq_none]
  constructor
  · intro h k
    by_contra hk
    have hk' : s.isLive now k = true := by simpa using hk
    exact h k (List.mem_range.mpr (lt_slotCount_of_isLive hk')) hk'
  · intro h k _
    simp [h k]

/-! ## Selecting -/

theorem choice?_cases (s : Selector) (now : Instant) :
    (∃ slot, s.selected = some slot ∧ s.mode.isSticky = true ∧ s.isLive now slot = true ∧
      s.choice? now = some slot) ∨
    ((∀ slot, s.selected = some slot → s.mode.isSticky = true → s.isLive now slot = false) ∧
      s.choice? now = s.lowestLive? now) := by
  cases hs : s.selected with
  | none => exact Or.inr ⟨by simp, by simp [choice?, hs]⟩
  | some slot =>
    by_cases h : (s.mode.isSticky && s.isLive now slot) = true
    · have hk : s.choice? now = some slot := by simp [choice?, hs, h]
      rw [Bool.and_eq_true] at h
      exact Or.inl ⟨slot, rfl, h.1, h.2, hk⟩
    · refine Or.inr ⟨?_, by simp [choice?, hs, h]⟩
      rintro k ⟨⟩ hm
      simpa [hm] using h

theorem isLive_of_choice? {s : Selector} {now : Instant} {slot : Nat}
    (h : s.choice? now = some slot) : s.isLive now slot = true := by
  rcases choice?_cases s now with ⟨k, -, -, hlive, hk⟩ | ⟨-, hlow⟩
  · rw [hk] at h
    cases h
    exact hlive
  · rw [hlow] at h
    exact ((lowestLive?_eq_some_iff s now slot).mp h).1

theorem choice?_eq_none_iff (s : Selector) (now : Instant) :
    s.choice? now = none ↔ ∀ k, s.isLive now k = false := by
  rcases choice?_cases s now with ⟨k, -, -, hlive, hk⟩ | ⟨-, hlow⟩
  · rw [hk]
    simp only [reduceCtorEq, false_iff]
    intro h
    simp [h k] at hlive
  · rw [hlow, lowestLive?_eq_none_iff]

theorem select_cases (s : Selector) (now : Instant) :
    (∃ slot r, s.choice? now = some slot ∧ s.reading? slot = some r ∧
      (s.select now).setpoint = s.setpoint.showing slot r.sample) ∨
    (s.choice? now = none ∧ (s.select now).setpoint = s.setpoint.withoutInput) := by
  cases hc : s.choice? now with
  | none => exact Or.inr ⟨rfl, by simp [select, hc]⟩
  | some slot =>
    obtain ⟨r, hr, -⟩ := (isLive_iff s now slot).mp (isLive_of_choice? hc)
    exact Or.inl ⟨slot, r, rfl, hr, by simp [select, hc, hr]⟩

theorem selected_select (s : Selector) (now : Instant) :
    (s.select now).selected = s.choice? now := by
  rcases select_cases s now with ⟨slot, r, hc, -, hsp⟩ | ⟨hc, hsp⟩
  · rw [selected, hsp, hc]; rfl
  · rw [selected, hsp, hc]; rfl

@[simp]
theorem isLive_select (s : Selector) (now t : Instant) (slot : Nat) :
    (s.select now).isLive t slot = s.isLive t slot := rfl

@[simp]
theorem reading?_select (s : Selector) (now : Instant) (slot : Nat) :
    (s.select now).reading? slot = s.reading? slot := rfl

theorem choice?_select (s : Selector) (now : Instant) :
    (s.select now).choice? now = s.choice? now := by
  rcases choice?_cases (s.select now) now with ⟨k, hk, -, -, hkept⟩ | ⟨hdrop, hlow⟩
  · rw [hkept, ← selected_select, hk]
  · rw [hlow]
    rcases choice?_cases s now with ⟨k, -, hsticky, hlive, hk⟩ | ⟨-, hs⟩
    · have hdead := hdrop k ((selected_select s now).trans hk) hsticky
      rw [isLive_select, hlive] at hdead
      cases hdead
    · exact hs.symm

theorem select_select (s : Selector) (now : Instant) :
    (s.select now).select now = s.select now := by
  have hsp : ((s.select now).select now).setpoint = (s.select now).setpoint := by
    rcases select_cases (s.select now) now with ⟨k, r, hk, hr, hsp⟩ | ⟨hk, hsp⟩
    · rw [choice?_select] at hk
      rcases select_cases s now with ⟨k', r', hk', hr', hsp'⟩ | ⟨hk', -⟩
      · cases hk.symm.trans hk'
        cases hr.symm.trans hr'
        rw [hsp, hsp']
        rfl
      · cases hk.symm.trans hk'
    · rw [choice?_select] at hk
      rcases select_cases s now with ⟨k', r', hk', -, -⟩ | ⟨-, hsp'⟩
      · cases hk.symm.trans hk'
      · rw [hsp, hsp']
        rfl
  exact congrArg (fun sp => { s with setpoint := sp }) hsp

/-- A setpoint that shows the last sample of a slot live at `now`, or none because none is live. -/
inductive Settled (s : Selector) (now : Instant) : Prop
  | showing (slot : Nat) (r : Reading) (live : s.isLive now slot = true)
      (reading : s.reading? slot = some r)
      (setpoint : s.setpoint = s.setpoint.showing slot r.sample)
  | lost (dead : ∀ slot, s.isLive now slot = false)
      (setpoint : s.setpoint = s.setpoint.withoutInput)

theorem settled_select (s : Selector) (now : Instant) : (s.select now).Settled now := by
  rcases select_cases s now with ⟨slot, r, hc, hr, hsp⟩ | ⟨hc, hsp⟩
  · have hlive := isLive_of_choice? hc
    exact .showing slot r hlive hr (by rw [hsp]; rfl)
  · exact .lost ((choice?_eq_none_iff s now).mp hc) (by rw [hsp]; rfl)

/-! ## Taking samples -/

@[simp]
theorem mode_deliver (s : Selector) (now : Instant) (slot : Nat) (x : Sample) :
    (s.deliver now slot x).mode = s.mode := by
  unfold deliver; split <;> rfl

@[simp]
theorem timeout_deliver (s : Selector) (now : Instant) (slot : Nat) (x : Sample) :
    (s.deliver now slot x).timeout = s.timeout := by
  unfold deliver; split <;> rfl

theorem reading?_record (s : Selector) (now : Instant) (slot : Nat) (x : Sample) (k : Nat)
    (h : slot < s.slotCount) :
    (s.record now slot x).reading? k = if k = slot then some ⟨x, now⟩ else s.reading? k := by
  by_cases hk : k = slot
  · subst hk
    simp only [reading?, record, if_true]
    rw [List.getElem?_set_self h]
    rfl
  · simp only [reading?, record, hk, if_false]
    rw [List.getElem?_set_ne (Ne.symm hk)]

theorem reading?_deliver (s : Selector) (now : Instant) (slot : Nat) (x : Sample) (k : Nat)
    (h : slot < s.slotCount) :
    (s.deliver now slot x).reading? k = if k = slot then some ⟨x, now⟩ else s.reading? k := by
  rw [deliver, if_pos h, reading?_select, reading?_record s now slot x k h]

/-- The selector once a cycle has delivered the new samples of the first `n` slots. -/
def taking (s : Selector) (f : Feed) (n : Nat) : Selector :=
  Arbiter.deliverFrom s f.now f.sample (List.range n)

def taken (s : Selector) (f : Feed) : Selector := Arbiter.deliverAll s f.now f.sample

@[simp]
theorem taking_zero (s : Selector) (f : Feed) : s.taking f 0 = s := rfl

theorem taking_succ_of_none (s : Selector) (f : Feed) (n : Nat) (h : f.sample n = none) :
    s.taking f (n + 1) = s.taking f n := by
  simp [taking, Arbiter.deliverFrom, List.range_succ, h]

theorem taking_succ_of_some (s : Selector) (f : Feed) (n : Nat) (x : Sample)
    (h : f.sample n = some x) : s.taking f (n + 1) = (s.taking f n).deliver f.now n x := by
  simp [taking, Arbiter.deliverFrom, List.range_succ, h]

theorem taking_frame (s : Selector) (f : Feed) (n : Nat) :
    (s.taking f n).mode = s.mode ∧ (s.taking f n).timeout = s.timeout ∧
      (s.taking f n).slotCount = s.slotCount := by
  induction n with
  | zero => exact ⟨rfl, rfl, rfl⟩
  | succ n ih =>
    cases hx : f.sample n with
    | none => rw [taking_succ_of_none s f n hx]; exact ih
    | some x =>
      rw [taking_succ_of_some s f n x hx, slotCount_deliver]
      simpa using ih

theorem reading?_taking (s : Selector) (f : Feed) (n k : Nat) (hn : n ≤ s.slotCount) :
    (s.taking f n).reading? k =
      if k < n then (f.reading? k).or (s.reading? k) else s.reading? k := by
  induction n with
  | zero => simp
  | succ n ih =>
    have ih := ih (by omega)
    cases hx : f.sample n with
    | none =>
      rw [taking_succ_of_none s f n hx, ih]
      by_cases hk : k = n
      · simp [hk, Feed.reading?, hx]
      · simp only [show k < n + 1 ↔ k < n by omega]
    | some x =>
      rw [taking_succ_of_some s f n x hx,
        reading?_deliver _ _ _ _ _ (by rw [(taking_frame s f n).2.2]; omega), ih]
      by_cases hk : k = n
      · simp [hk, Feed.reading?, hx]
      · simp only [hk, if_false, show k < n + 1 ↔ k < n by omega]

theorem taking_of_quiet (s : Selector) (f : Feed) (n : Nat) (h : ¬ f.Offers n) :
    s.taking f n = s := by
  induction n with
  | zero => rfl
  | succ n ih =>
    have hn : f.sample n = none := by
      by_contra hx
      exact h ⟨n, by omega, Option.isSome_iff_ne_none.mpr hx⟩
    rw [taking_succ_of_none s f n hn]
    exact ih fun hoffers => h (hoffers.mono (by omega))

theorem select_taking (s : Selector) (f : Feed) (n : Nat) (hn : n ≤ s.slotCount)
    (h : f.Offers n) : (s.taking f n).select f.now = s.taking f n := by
  induction n with
  | zero =>
    obtain ⟨k, hk, -⟩ := h
    omega
  | succ n ih =>
    cases hx : f.sample n with
    | none =>
      rw [taking_succ_of_none s f n hx]
      exact ih (by omega) (h.of_succ hx)
    | some x =>
      rw [taking_succ_of_some s f n x hx, deliver, if_pos]
      · exact select_select _ _
      · rw [(taking_frame s f n).2.2]
        omega

theorem settled_taking (s : Selector) (f : Feed) (n : Nat) (hn : n ≤ s.slotCount)
    (h : f.Offers n) : (s.taking f n).Settled f.now :=
  select_taking s f n hn h ▸ settled_select _ _

theorem taken_of_offers (s : Selector) (f : Feed) (h : f.Offers s.slotCount) :
    s.taken f = s.taking f s.slotCount := by
  have hany : ((List.range s.slotCount).any fun slot => (f.sample slot).isSome) = true := by
    simpa [Feed.Offers] using h
  simp only [taken, Arbiter.deliverAll, hany, if_true]
  rfl

theorem taken_of_quiet (s : Selector) (f : Feed) (h : ¬ f.Offers s.slotCount) :
    s.taken f = s.select f.now := by
  have hany : ¬ ((List.range s.slotCount).any fun slot => (f.sample slot).isSome) = true := by
    simpa [Feed.Offers] using h
  simp only [taken, Arbiter.deliverAll]
  rw [if_neg hany]

theorem taken_eq (s : Selector) (f : Feed) :
    s.taken f = (s.taking f s.slotCount).select f.now := by
  by_cases h : f.Offers s.slotCount
  · rw [taken_of_offers s f h, select_taking s f _ (le_refl _) h]
  · rw [taken_of_quiet s f h, taking_of_quiet s f _ h]

theorem settled_taken (s : Selector) (f : Feed) : (s.taken f).Settled f.now :=
  taken_eq s f ▸ settled_select _ _

theorem taken_frame (s : Selector) (f : Feed) :
    (s.taken f).mode = s.mode ∧ (s.taken f).timeout = s.timeout ∧
      (s.taken f).slotCount = s.slotCount := by
  rw [taken_eq]
  exact taking_frame s f _

theorem reading?_taken (s : Selector) (f : Feed) (k : Nat) (hk : k < s.slotCount) :
    (s.taken f).reading? k = (f.reading? k).or (s.reading? k) := by
  rw [taken_eq, reading?_select, reading?_taking s f _ k (le_refl _), if_pos hk]

/-- Between two deliveries a slot below is as live as at the end, and a slot above as before. -/
theorem isLive_taking (s : Selector) (f : Feed) (n k : Nat) (hn : n ≤ s.slotCount) :
    (s.taking f n).isLive f.now k =
      if k < n then (s.taken f).isLive f.now k else s.isLive f.now k := by
  obtain ⟨hm, ht, -⟩ := taking_frame s f n
  obtain ⟨hm', ht', -⟩ := taken_frame s f
  split
  · rename_i hk
    apply isLive_congr _ _ (by rw [hm, hm']) (by rw [ht, ht'])
    rw [reading?_taking s f n k hn, if_pos hk, reading?_taken s f k (by omega)]
  · rename_i hk
    apply isLive_congr _ _ hm ht
    rw [reading?_taking s f n k hn, if_neg hk]

theorem isLive_taking_of_live (s : Selector) (f : Feed) (n k : Nat) (hn : n ≤ s.slotCount)
    (hbefore : s.isLive f.now k = true) (hafter : (s.taken f).isLive f.now k = true) :
    (s.taking f n).isLive f.now k = true := by
  rw [isLive_taking s f n k hn]
  split
  · exact hafter
  · exact hbefore

/-! ## Which slot is selected between two deliveries -/

theorem selected_taking_succ (s : Selector) (f : Feed) (n : Nat) (x : Sample)
    (hn : n < s.slotCount) (hx : f.sample n = some x) :
    (∃ slot, (s.taking f n).selected = some slot ∧ s.mode.isSticky = true ∧
      (s.taking f (n + 1)).isLive f.now slot = true ∧
      (s.taking f (n + 1)).selected = some slot) ∨
    ((∀ slot, (s.taking f n).selected = some slot → s.mode.isSticky = true →
      (s.taking f (n + 1)).isLive f.now slot = false) ∧
      (s.taking f (n + 1)).selected = (s.taking f (n + 1)).lowestLive? f.now) := by
  obtain ⟨hm, -, hc⟩ := taking_frame s f n
  rw [← hc] at hn
  rw [taking_succ_of_some s f n x hx, deliver, if_pos hn, selected_select, ← hm]
  exact choice?_cases ((s.taking f n).record f.now n x) f.now

theorem selected_taking_of_live (s : Selector) (f : Feed) (m n slot : Nat) (hmn : m ≤ n)
    (hn : n ≤ s.slotCount) (hsticky : s.mode.isSticky = true)
    (hm : (s.taking f m).selected = some slot)
    (hlive : ∀ i, m < i → i ≤ n → (s.taking f i).isLive f.now slot = true) :
    (s.taking f n).selected = some slot := by
  induction n, hmn using Nat.le_induction with
  | base => exact hm
  | succ n hmn ih =>
    have ih := ih (by omega) fun i hi hin => hlive i hi (by omega)
    cases hx : f.sample n with
    | none => rw [taking_succ_of_none s f n hx]; exact ih
    | some x =>
      rcases selected_taking_succ s f n x (by omega) hx with ⟨k, hk, -, -, hs⟩ | ⟨hdead, -⟩
      · rw [hs, ← hk, ih]
      · have := hdead slot ih hsticky
        rw [hlive (n + 1) (by omega) (le_refl _)] at this
        cases this

theorem selected_taking_of_low (s : Selector) (f : Feed) (m n low : Nat) (hmn : m ≤ n)
    (hn : n ≤ s.slotCount)
    (hlow : ∀ i, m < i → i ≤ n → (s.taking f i).isLive f.now low = true) :
    (s.taking f n).selected = (s.taking f m).selected ∨
      ∃ c ≤ low, (s.taking f n).selected = some c := by
  induction n, hmn using Nat.le_induction with
  | base => exact Or.inl rfl
  | succ n hmn ih =>
    have ih := ih (by omega) fun i hi hin => hlow i hi (by omega)
    cases hx : f.sample n with
    | none => rw [taking_succ_of_none s f n hx]; exact ih
    | some x =>
      rcases selected_taking_succ s f n x (by omega) hx with ⟨k, hk, -, -, hs⟩ | ⟨-, hs⟩
      · rw [hs, ← hk]
        exact ih
      · right
        have hlive := hlow (n + 1) (by omega) (le_refl _)
        cases hc : (s.taking f (n + 1)).lowestLive? f.now with
        | none =>
          rw [(lowestLive?_eq_none_iff _ _).mp hc low] at hlive
          cases hlive
        | some c =>
          rw [hs, hc]
          exact ⟨c, ((lowestLive?_eq_some_iff _ _ _).mp hc).2 hlive, rfl⟩

theorem isLive_of_selected {s : Selector} {now : Instant} {slot : Nat} (h : s.Settled now)
    (hs : s.selected = some slot) : s.isLive now slot = true := by
  cases h with
  | showing k r live _ setpoint =>
    rw [selected, setpoint] at hs
    cases hs
    exact live
  | lost _ setpoint =>
    rw [selected, setpoint] at hs
    cases hs

theorem selected_ne_none {s : Selector} {now : Instant} {slot : Nat} (h : s.Settled now)
    (hlive : s.isLive now slot = true) : s.selected ≠ none := by
  cases h with
  | showing k r _ _ setpoint =>
    rw [selected, setpoint]
    exact Option.some_ne_none k
  | lost dead _ =>
    rw [dead slot] at hlive
    cases hlive

theorem valid_iff_of_settled {s : Selector} {now : Instant} (h : s.Settled now) :
    s.setpoint.valid = true ↔ ∃ slot, s.isLive now slot = true := by
  cases h with
  | showing slot r live _ setpoint =>
    refine iff_of_true ?_ ⟨slot, live⟩
    rw [setpoint]
    rfl
  | lost dead setpoint =>
    refine iff_of_false ?_ fun ⟨slot, hlive⟩ => ?_
    · rw [setpoint]
      exact Bool.false_ne_true
    · rw [dead slot] at hlive
      cases hlive

theorem selected_eq_none {s : Selector} {now : Instant} (h : s.Settled now)
    (hlost : s.setpoint.valid = false) : s.selected = none := by
  cases h with
  | showing slot r _ _ setpoint =>
    rw [setpoint] at hlost
    cases hlost
  | lost _ setpoint =>
    rw [selected, setpoint]
    rfl

end Selector

end StickArbiter
