import StickArbiter.Proofs.Selection

/-!
# Selectors that differ on unusable slots

An unusable slot is never live, and its samples only make a selector select once more. That matters
only ahead of the first other sample.
-/

namespace StickArbiter

/-- Whether a mode can ever select a sample. -/
def Sample.usable (x : Sample) (m : Mode) : Bool := x.valid && m.accepts x.source

/-- Two feeds that agree but for unusable samples of hidden slots. -/
structure Feed.Twins (hidden : Nat → Bool) (m : Mode) (f g : Feed) : Prop where
  now : g.now = f.now
  parameters : g.parameters = f.parameters
  sample : ∀ k, hidden k = false → g.sample k = f.sample k
  left : ∀ k x, hidden k = true → f.sample k = some x → x.usable m = false
  right : ∀ k x, hidden k = true → g.sample k = some x → x.usable m = false

theorem Feed.Twins.symm {hidden : Nat → Bool} {m : Mode} {f g : Feed} (h : Twins hidden m f g) :
    Twins hidden m g f :=
  ⟨h.now.symm, h.parameters.symm, fun k hk => (h.sample k hk).symm, h.right, h.left⟩

/-- The first slot with a sample, hidden slots apart. -/
structure Feed.First (hidden : Nat → Bool) (f : Feed) (d : Nat) : Prop where
  seen : hidden d = false
  offered : (f.sample d).isSome = true
  quiet : ∀ k < d, hidden k = false → f.sample k = none

namespace Selector

/-- Two selectors that agree but for slots that hold nothing usable, setpoints apart. -/
structure Twins (hidden : Nat → Bool) (s t : Selector) : Prop where
  mode : t.mode = s.mode
  timeout : t.timeout = s.timeout
  slotCount : t.slotCount = s.slotCount
  reading : ∀ k, hidden k = false → t.reading? k = s.reading? k
  left : ∀ k r, hidden k = true → s.reading? k = some r → r.sample.usable s.mode = false
  right : ∀ k r, hidden k = true → t.reading? k = some r → r.sample.usable s.mode = false

/-- Two selectors show the same slot, and if `whole` is asked for the same setpoint. -/
def Agree (whole : Prop) (s t : Selector) : Prop :=
  t.selected = s.selected ∧ (whole → t.setpoint = s.setpoint)

variable {hidden : Nat → Bool} {whole : Prop} {s t u : Selector}

namespace Twins

theorem symm (h : Twins hidden s t) : Twins hidden t s :=
  ⟨h.mode.symm, h.timeout.symm, h.slotCount.symm, fun k hk => (h.reading k hk).symm,
    h.mode ▸ h.right, h.mode ▸ h.left⟩

theorem trans (h : Twins hidden s t) (h' : Twins hidden t u) : Twins hidden s u :=
  ⟨h'.mode.trans h.mode, h'.timeout.trans h.timeout, h'.slotCount.trans h.slotCount,
    fun k hk => (h'.reading k hk).trans (h.reading k hk), h.left, h.mode ▸ h'.right⟩

theorem not_live (h : Twins hidden s t) (now : Instant) (k : Nat) (hk : hidden k = true) :
    s.isLive now k = false := by
  by_contra hlive
  obtain ⟨r, hr, hadmits⟩ := (s.isLive_iff now k).mp (by simpa using hlive)
  have husable : r.sample.usable s.mode = true := by
    simp only [admits, Bool.and_eq_true] at hadmits
    simp [Sample.usable, hadmits.1]
  rw [h.left k r hk hr] at husable
  cases husable

theorem isLive (h : Twins hidden s t) (now : Instant) (k : Nat) :
    t.isLive now k = s.isLive now k := by
  cases hk : hidden k with
  | false => exact isLive_congr now k h.mode h.timeout (h.reading k hk)
  | true => rw [h.not_live now k hk, h.symm.not_live now k hk]

theorem lowestLive? (h : Twins hidden s t) (now : Instant) :
    t.lowestLive? now = s.lowestLive? now := by
  rw [Selector.lowestLive?, Selector.lowestLive?, h.slotCount, funext (h.isLive now)]

theorem choice? (h : Twins hidden s t) (ha : t.selected = s.selected) (now : Instant) :
    t.choice? now = s.choice? now := by
  rw [Selector.choice?, Selector.choice?, ha, h.mode, h.lowestLive? now]
  cases s.selected with
  | none => rfl
  | some k => simp only [h.isLive now k]

theorem record (h : Twins hidden s t) (now : Instant) (k : Nat) (x : Sample)
    (hk : hidden k = false) (hcount : k < s.slotCount) :
    Twins hidden (s.record now k x) (t.record now k x) := by
  have hcount' : k < t.slotCount := h.slotCount ▸ hcount
  have hne : ∀ j, hidden j = true → j ≠ k := by
    rintro j hj rfl
    cases hk.symm.trans hj
  refine ⟨h.mode, h.timeout, ?_, ?_, ?_, ?_⟩
  · rw [slotCount_record, slotCount_record, h.slotCount]
  · intro j hj
    rw [reading?_record s now k x j hcount, reading?_record t now k x j hcount', h.reading j hj]
  · intro j r hj hr
    rw [reading?_record s now k x j hcount, if_neg (hne j hj)] at hr
    exact h.left j r hj hr
  · intro j r hj hr
    rw [reading?_record t now k x j hcount', if_neg (hne j hj)] at hr
    exact h.right j r hj hr

theorem record_left (h : Twins hidden s t) (now : Instant) (k : Nat) (x : Sample)
    (hk : hidden k = true) (hx : x.usable s.mode = false) (hcount : k < s.slotCount) :
    Twins hidden (s.record now k x) t := by
  refine ⟨h.mode, h.timeout, ?_, ?_, ?_, h.right⟩
  · rw [slotCount_record, h.slotCount]
  · intro j hj
    have hne : j ≠ k := by
      rintro rfl
      cases hk.symm.trans hj
    rw [reading?_record s now k x j hcount, if_neg hne, h.reading j hj]
  · intro j r hj hr
    rw [reading?_record s now k x j hcount] at hr
    split at hr
    · cases hr
      exact hx
    · exact h.left j r hj hr

theorem select_left (h : Twins hidden s t) (now : Instant) : Twins hidden (s.select now) t :=
  ⟨h.mode, h.timeout, h.slotCount, h.reading, h.left, h.right⟩

theorem select_right (h : Twins hidden s t) (now : Instant) : Twins hidden s (t.select now) :=
  (h.symm.select_left now).symm

end Twins

/-! ## Twins agree -/

theorem agree_select (h : Twins hidden s t) (ha : Agree whole s t) (now : Instant) :
    Agree whole (s.select now) (t.select now) := by
  have hchoice := h.choice? ha.1 now
  refine ⟨by rw [selected_select, selected_select, hchoice], fun hwhole => ?_⟩
  have hsp := ha.2 hwhole
  rcases select_cases s now with ⟨k, r, hk, hr, hs⟩ | ⟨hk, hs⟩
  · rcases select_cases t now with ⟨k', r', hk', hr', ht⟩ | ⟨hk', -⟩
    · cases (hk'.symm.trans hchoice).trans hk
      have hseen : hidden k = false := by
        by_contra hhidden
        have hlive := isLive_of_choice? hk
        rw [h.not_live now k (by simpa using hhidden)] at hlive
        cases hlive
      cases (hr'.symm.trans (h.reading k hseen)).trans hr
      rw [hs, ht, hsp]
    · cases (hk'.symm.trans hchoice).trans hk
  · rcases select_cases t now with ⟨k', r', hk', -, -⟩ | ⟨-, ht⟩
    · cases (hk'.symm.trans hchoice).trans hk
    · rw [hs, ht, hsp]

theorem Agree.refl (whole : Prop) (s : Selector) : Agree whole s s := ⟨rfl, fun _ => rfl⟩

theorem Agree.symm (h : Agree whole s t) : Agree whole t s :=
  ⟨h.1.symm, fun hwhole => (h.2 hwhole).symm⟩

theorem Agree.trans (h : Agree whole s t) (h' : Agree whole t u) : Agree whole s u :=
  ⟨h'.1.trans h.1, fun hwhole => (h'.2 hwhole).trans (h.2 hwhole)⟩

theorem twins_deliver (h : Twins hidden s t) (now : Instant) (k : Nat) (x : Sample)
    (hk : hidden k = false) (hcount : k < s.slotCount) :
    Twins hidden (s.deliver now k x) (t.deliver now k x) ∧
      ∀ {whole}, Agree whole s t → Agree whole (s.deliver now k x) (t.deliver now k x) := by
  rw [deliver, if_pos hcount, deliver, if_pos (h.slotCount ▸ hcount)]
  have hrecord := h.record now k x hk hcount
  exact ⟨(hrecord.select_left now).select_right now, fun ha => agree_select hrecord ha now⟩

theorem twins_deliver_left (h : Twins hidden s t) (now : Instant) (k : Nat) (x : Sample)
    (hk : hidden k = true) (hx : x.usable s.mode = false) (hcount : k < s.slotCount) :
    Twins hidden (s.deliver now k x) t ∧
      ∀ {whole}, Agree whole s t → Agree whole (s.deliver now k x) (t.select now) := by
  rw [deliver, if_pos hcount]
  have hrecord := h.record_left now k x hk hx hcount
  exact ⟨hrecord.select_left now, fun ha => agree_select hrecord ha now⟩

/-! ## Twins take samples -/

variable {f g : Feed} {d n : Nat}

theorem twins_taking_left (h : Twins hidden (s.taking f n) t) (hk : hidden n = true)
    (hx : ∀ x, f.sample n = some x → x.usable s.mode = false) (hn : n < s.slotCount) :
    Twins hidden (s.taking f (n + 1)) t ∧
      ∀ {whole}, Agree whole (s.taking f n) t → t.select f.now = t →
        Agree whole (s.taking f (n + 1)) t := by
  obtain ⟨hm, -, hc⟩ := taking_frame s f n
  cases hsample : f.sample n with
  | none =>
    rw [taking_succ_of_none s f n hsample]
    exact ⟨h, fun ha _ => ha⟩
  | some x =>
    rw [taking_succ_of_some s f n x hsample]
    have hstep := twins_deliver_left h f.now n x hk (hm ▸ hx x hsample) (hc ▸ hn)
    exact ⟨hstep.1, fun ha hrest => hrest ▸ hstep.2 ha⟩

theorem twins_taking_succ (h : Twins hidden (s.taking f n) (t.taking g n))
    (hfeed : Feed.Twins hidden s.mode f g) (hn : n < s.slotCount) :
    Twins hidden (s.taking f (n + 1)) (t.taking g (n + 1)) ∧
      ∀ {whole}, Agree whole (s.taking f n) (t.taking g n) → f.Offers n → g.Offers n →
        Agree whole (s.taking f (n + 1)) (t.taking g (n + 1)) := by
  obtain ⟨hm, -, hc⟩ := taking_frame s f n
  obtain ⟨hm', -, hc'⟩ := taking_frame t g n
  have hcount : n < t.slotCount := by
    rw [← hc', h.slotCount, hc]
    exact hn
  cases hk : hidden n with
  | false =>
    have hsame := hfeed.sample n hk
    cases hsample : f.sample n with
    | none =>
      rw [hsample] at hsame
      rw [taking_succ_of_none s f n hsample, taking_succ_of_none t g n hsame]
      exact ⟨h, fun ha _ _ => ha⟩
    | some x =>
      rw [hsample] at hsame
      rw [taking_succ_of_some s f n x hsample, taking_succ_of_some t g n x hsame, hfeed.now]
      have hstep := twins_deliver h f.now n x hk (hc ▸ hn)
      exact ⟨hstep.1, fun ha _ _ => hstep.2 ha⟩
  | true =>
    have hleft := twins_taking_left h hk (fun x => hfeed.left n x hk) hn
    have hmode : t.mode = s.mode := by rw [← hm, ← hm', h.mode]
    have hright := twins_taking_left hleft.1.symm hk
      (fun x hx => hmode ▸ hfeed.right n x hk hx) hcount
    refine ⟨hright.1.symm, fun ha hf hg => ?_⟩
    have hl := hleft.2 ha (hfeed.now ▸ select_taking t g n (by omega) hg)
    refine (hright.2 hl.symm ?_).symm
    rw [hfeed.now]
    exact select_taking s f (n + 1) (by omega) (hf.mono (by omega))

theorem twins_taking (h : Twins hidden s t) (hfeed : Feed.Twins hidden s.mode f g)
    (hn : n ≤ s.slotCount) : Twins hidden (s.taking f n) (t.taking g n) := by
  induction n with
  | zero => exact h
  | succ n ih => exact (twins_taking_succ (ih (by omega)) hfeed hn).1

theorem agree_taking (h : Twins hidden s t) (hfeed : Feed.Twins hidden s.mode f g) (m : Nat)
    (hmn : m ≤ n) (hn : n ≤ s.slotCount) (hf : f.Offers m) (hg : g.Offers m)
    (ha : Agree whole (s.taking f m) (t.taking g m)) :
    Agree whole (s.taking f n) (t.taking g n) := by
  induction n, hmn using Nat.le_induction with
  | base => exact ha
  | succ n hmn ih =>
    have htwins := twins_taking h hfeed (n := n) (by omega)
    exact (twins_taking_succ htwins hfeed hn).2 (ih (by omega)) (hf.mono hmn) (hg.mono hmn)

theorem agree_taking_ahead (h : Twins hidden s t) (ha : Agree whole s t)
    (hx : ∀ k x, hidden k = true → f.sample k = some x → x.usable s.mode = false)
    (hquiet : ∀ k < n, hidden k = false → f.sample k = none) (hn : n ≤ s.slotCount) :
    Twins hidden (s.taking f n) t ∧
      (f.Offers n → Agree whole (s.taking f n) (t.select f.now)) := by
  induction n with
  | zero =>
    refine ⟨h, ?_⟩
    rintro ⟨k, hk, -⟩
    omega
  | succ n ih =>
    obtain ⟨htwins, hagree⟩ := ih (fun k hk => hquiet k (by omega)) (by omega)
    obtain ⟨hm, -, hc⟩ := taking_frame s f n
    cases hsample : f.sample n with
    | none =>
      rw [taking_succ_of_none s f n hsample]
      exact ⟨htwins, fun h => hagree (h.of_succ hsample)⟩
    | some x =>
      have hk : hidden n = true := by
        by_contra hk
        have := hquiet n (by omega) (by simpa using hk)
        rw [hsample] at this
        cases this
      rw [taking_succ_of_some s f n x hsample]
      have hstep := twins_deliver_left htwins f.now n x hk (hm ▸ hx n x hk hsample) (hc ▸ hn)
      refine ⟨hstep.1, fun _ => ?_⟩
      by_cases hoffers : f.Offers n
      · have hselect := twins_deliver_left (htwins.select_right f.now) f.now n x hk
          (hm ▸ hx n x hk hsample) (hc ▸ hn)
        exact select_select t f.now ▸ hselect.2 (hagree hoffers)
      · rw [taking_of_quiet s f n hoffers] at hstep ⊢
        exact hstep.2 ha

/-! ## Twins over a cycle -/

theorem Twins.taken (h : Twins hidden s t) (hfeed : Feed.Twins hidden s.mode f g) :
    Twins hidden (s.taken f) (t.taken g) := by
  rw [taken_eq, taken_eq, h.slotCount]
  exact ((twins_taking h hfeed (le_refl _)).select_left _).select_right _

theorem agree_taken_of_taking (h : Twins hidden s t) (hfeed : Feed.Twins hidden s.mode f g)
    (hn : n ≤ s.slotCount) (hf : f.Offers n) (hg : g.Offers n)
    (ha : Agree whole (s.taking f n) (t.taking g n)) : Agree whole (s.taken f) (t.taken g) := by
  rw [taken_eq, taken_eq, h.slotCount, hfeed.now]
  exact agree_select (twins_taking h hfeed (le_refl _))
    (agree_taking h hfeed n hn (le_refl _) hf hg ha) f.now

theorem agree_taking_first (h : Twins hidden s t) (hfeed : Feed.Twins hidden s.mode f g)
    (hd : f.First hidden d) (hcount : d < s.slotCount)
    (ha : Agree whole (s.taking f d) (t.taking g d)) :
    Agree whole (s.taking f (d + 1)) (t.taking g (d + 1)) := by
  have htwins := twins_taking h hfeed (n := d) (by omega)
  obtain ⟨x, hx⟩ := Option.isSome_iff_exists.mp hd.offered
  have hsame : g.sample d = some x := (hfeed.sample d hd.seen).trans hx
  rw [taking_succ_of_some s f d x hx, taking_succ_of_some t g d x hsame, hfeed.now]
  refine (twins_deliver htwins f.now d x hd.seen ?_).2 ha
  rw [(taking_frame s f d).2.2]
  exact hcount

theorem agree_taken_of_first (h : Twins hidden s t) (hfeed : Feed.Twins hidden s.mode f g)
    (hd : f.First hidden d) (hcount : d < s.slotCount)
    (ha : Agree whole (s.taking f d) (t.taking g d)) : Agree whole (s.taken f) (t.taken g) := by
  have hg : (g.sample d).isSome = true := hfeed.sample d hd.seen ▸ hd.offered
  exact agree_taken_of_taking h hfeed hcount ⟨d, by omega, hd.offered⟩ ⟨d, by omega, hg⟩
    (agree_taking_first h hfeed hd hcount ha)

theorem agree_taken_of_quiet (h : Twins hidden s t) (ha : Agree whole s t)
    (hx : ∀ k x, hidden k = true → f.sample k = some x → x.usable s.mode = false)
    (hquiet : ∀ k < s.slotCount, hidden k = false → f.sample k = none) :
    Agree whole (s.taken f) (t.select f.now) := by
  have hahead := agree_taking_ahead h ha hx hquiet (le_refl _)
  by_cases hoffers : f.Offers s.slotCount
  · rw [taken_of_offers s f hoffers]
    exact hahead.2 hoffers
  · rw [taken_of_quiet s f hoffers]
    exact agree_select h ha f.now

theorem first_or_quiet (hidden : Nat → Bool) (f : Feed) (n : Nat) :
    (∃ d < n, f.First hidden d) ∨ ∀ k < n, hidden k = false → f.sample k = none := by
  induction n with
  | zero => exact Or.inr (by omega)
  | succ n ih =>
    rcases ih with ⟨d, hd, hfirst⟩ | hquiet
    · exact Or.inl ⟨d, by omega, hfirst⟩
    · by_cases hn : hidden n = false ∧ (f.sample n).isSome = true
      · exact Or.inl ⟨n, by omega, hn.1, hn.2, hquiet⟩
      · refine Or.inr fun k hk hseen => ?_
        rcases Nat.lt_succ_iff_lt_or_eq.mp hk with hk | rfl
        · exact hquiet k hk hseen
        · simpa [hseen] using hn

/-- Twins that agree still agree after a cycle, if both or neither hear something hidden first. -/
theorem agree_taken (h : Twins hidden s t) (ha : Agree whole s t)
    (hfeed : Feed.Twins hidden s.mode f g)
    (hahead : ∀ d < s.slotCount, f.First hidden d → (f.Offers d ↔ g.Offers d)) :
    Agree whole (s.taken f) (t.taken g) := by
  have hself : Twins hidden t t := h.symm.trans h
  have hright : ∀ k x, hidden k = true → g.sample k = some x → x.usable t.mode = false :=
    h.mode ▸ hfeed.right
  rcases first_or_quiet hidden f s.slotCount with ⟨d, hd, hfirst⟩ | hquiet
  · refine agree_taken_of_first h hfeed hfirst hd ?_
    by_cases hf : f.Offers d
    · have hg := (hahead d hd hfirst).mp hf
      have hleft := (agree_taking_ahead h ha hfeed.left hfirst.quiet (by omega)).2 hf
      have hquiet : ∀ k < d, hidden k = false → g.sample k = none := by
        intro k hk hseen
        rw [hfeed.sample k hseen]
        exact hfirst.quiet k hk hseen
      have hself := agree_taking_ahead hself (Agree.refl whole t) hright hquiet
        (h.slotCount ▸ le_of_lt hd)
      exact hleft.trans (hfeed.now ▸ hself.2 hg).symm
    · have hg := fun hg => hf ((hahead d hd hfirst).mpr hg)
      rw [taking_of_quiet s f d hf, taking_of_quiet t g d hg]
      exact ha
  · have hquiet' : ∀ k < t.slotCount, hidden k = false → g.sample k = none := by
      intro k hk hseen
      rw [hfeed.sample k hseen]
      exact hquiet k (h.slotCount ▸ hk) hseen
    have hleft := agree_taken_of_quiet h ha hfeed.left hquiet
    have hself := agree_taken_of_quiet hself (Agree.refl whole t) hright hquiet'
    exact hleft.trans (hfeed.now ▸ hself).symm

theorem agree_taken_of_ahead (h : Twins hidden s t) (ha : Agree whole s t)
    (hfeed : Feed.Twins hidden s.mode f g) (hd : d < s.slotCount) (hfirst : f.First hidden d)
    (hf : f.Offers d) (hg : ¬ g.Offers d) :
    Agree whole (s.taken f) ((t.select f.now).taken g) := by
  refine agree_taken_of_first (h.select_right f.now) hfeed hfirst hd ?_
  rw [taking_of_quiet _ g d hg]
  exact (agree_taking_ahead h ha hfeed.left hfirst.quiet (by omega)).2 hf

end Selector

end StickArbiter
