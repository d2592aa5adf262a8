import StickArbiter.Proofs.Twins

/-!
# A selection ahead of a cycle

A selection made before a cycle hears its first slot matters in two cases: a sticky slot keeps out
the first one heard, or the only live slot falls silent.
-/

namespace StickArbiter

/-- Selected ahead, slot `c` keeps out slot `d`, which would have been selected when heard. -/
structure Forestalls (before after : Nat → Prop) (present : Option Nat) (d c : Nat) : Prop where
  loose : ∀ k, present = some k → ¬ before k
  lowest : IsLeast {k | before k} c
  lasting : after c
  fresh : ¬ before d
  heard : after d
  wanted : present = some d ∨ d < c

/-- Selected ahead, slot `d` leaves a reading in a setpoint that showed other values. -/
structure Leaks (before after : Nat → Prop) (r? : Option Reading) (sp : Setpoint) (d : Nat) :
    Prop where
  only : ∀ k, before k ↔ k = d
  lost : ∀ k, ¬ after k
  differs : ∃ r, r? = some r ∧ ¬ (sp.axes = r.sample.axes ∧ sp.timestamp = r.sample.timestamp ∧
    sp.source = r.sample.source)

/-- When it matters whether something was selected ahead of slot `d`. -/
def Hazard (sticky tracking : Prop) (before after : Nat → Prop) (present : Option Nat)
    (r? : Option Reading) (sp : Setpoint) (d : Nat) : Prop :=
  (sticky ∧ ∃ c, Forestalls before after present d c) ∨ (tracking ∧ Leaks before after r? sp d)

theorem Feed.Twins.refl (m : Mode) (f : Feed) : Twins (fun _ => false) m f f :=
  ⟨rfl, rfl, fun _ _ => rfl, fun _ _ h => absurd h Bool.false_ne_true,
    fun _ _ h => absurd h Bool.false_ne_true⟩

theorem Feed.First.twin {hidden : Nat → Bool} {m : Mode} {f g : Feed} {d : Nat}
    (h : f.First hidden d) (hfeed : Twins hidden m f g) : g.First hidden d :=
  ⟨h.seen, hfeed.sample d h.seen ▸ h.offered,
    fun k hk hseen => (hfeed.sample k hseen).trans (h.quiet k hk hseen)⟩

theorem Feed.First.of_not_offers {hidden : Nat → Bool} {f : Feed} {d : Nat}
    (h : f.First hidden d) (hquiet : ¬ f.Offers d) : f.First (fun _ => false) d := by
  refine ⟨rfl, h.offered, fun k hk _ => ?_⟩
  by_contra hx
  exact hquiet ⟨k, hk, Option.isSome_iff_ne_none.mpr hx⟩

theorem Setpoint.withoutInput_showing_iff (sp : Setpoint) (slot : Nat) (x : Sample) :
    (sp.showing slot x).withoutInput = sp.withoutInput ↔
      sp.axes = x.axes ∧ sp.timestamp = x.timestamp ∧ sp.source = x.source := by
  simp only [showing, withoutInput, Setpoint.mk.injEq, true_and, and_true]
  constructor
  · rintro ⟨ht, ha, hs⟩
    exact ⟨ha.symm, ht.symm, hs.symm⟩
  · rintro ⟨ha, ht, hs⟩
    exact ⟨ht.symm, ha.symm, hs.symm⟩

namespace Selector

theorem Twins.refl (s : Selector) : Twins (fun _ => false) s s :=
  ⟨rfl, rfl, rfl, fun _ _ => rfl, fun _ _ h => absurd h Bool.false_ne_true,
    fun _ _ h => absurd h Bool.false_ne_true⟩

theorem isLive_taken_select (s : Selector) (f : Feed) (k : Nat) :
    ((s.select f.now).taken f).isLive f.now k = (s.taken f).isLive f.now k :=
  (((Twins.refl s).select_right f.now).taken (Feed.Twins.refl s.mode f)).isLive f.now k

theorem isLive_taking_select (s : Selector) (f : Feed) (n k : Nat) (hn : n ≤ s.slotCount) :
    ((s.select f.now).taking f n).isLive f.now k = (s.taking f n).isLive f.now k :=
  (twins_taking ((Twins.refl s).select_right f.now) (Feed.Twins.refl s.mode f) hn).isLive f.now k

theorem selected_select_of_loose (s : Selector) (now : Instant)
    (hloose : ∀ k, s.selected = some k → s.mode.isSticky = true → s.isLive now k = false) :
    (s.select now).selected = s.lowestLive? now := by
  rw [selected_select]
  rcases choice?_cases s now with ⟨k, hk, hsticky, hlive, -⟩ | ⟨-, hlow⟩
  · rw [hloose k hk hsticky] at hlive
    cases hlive
  · exact hlow

theorem isLive_taking_of_only (s : Selector) (f : Feed) (d n k : Nat) (hdn : d < n)
    (hn : n ≤ s.slotCount) (hlost : ∀ k, (s.taken f).isLive f.now k = false)
    (honly : ∀ k, s.isLive f.now k = true → k = d) : (s.taking f n).isLive f.now k = false := by
  rw [isLive_taking s f n k hn]
  split
  · exact hlost k
  · by_contra hlive
    have := honly k (by simpa using hlive)
    omega

def HazardAt (tracking : Prop) (s : Selector) (f : Feed) (d : Nat) : Prop :=
  Hazard (s.mode.isSticky = true) tracking (fun k => s.isLive f.now k = true)
    (fun k => (s.taken f).isLive f.now k = true) s.selected (s.reading? d) s.setpoint d

/-- Ends on the same slot, and while tracking, where that is none, with the same setpoint. -/
def EndsAlike (tracking : Prop) (s t : Selector) : Prop :=
  t.selected = s.selected ∧ (tracking → s.setpoint.valid = false → t.setpoint = s.setpoint)

theorem EndsAlike.symm {tracking : Prop} {s t : Selector} (h : EndsAlike tracking s t)
    (hvalid : t.setpoint.valid = s.setpoint.valid) : EndsAlike tracking t s :=
  ⟨h.1.symm, fun htracking hlost => (h.2 htracking (hvalid ▸ hlost)).symm⟩

theorem EndsAlike.of_left {tracking : Prop} {s t u : Selector} (h : EndsAlike tracking u t)
    (ha : Agree tracking s u) : EndsAlike tracking s t := by
  refine ⟨h.1.trans ha.1, fun htracking hlost => ?_⟩
  have hsp := ha.2 htracking
  exact (h.2 htracking (hsp ▸ hlost)).trans hsp

theorem EndsAlike.of_right {tracking : Prop} {s t u : Selector} (h : EndsAlike tracking s u)
    (ha : Agree tracking t u) : EndsAlike tracking s t :=
  ⟨ha.1.symm.trans h.1, fun htracking hlost =>
    (ha.2 htracking).symm.trans (h.2 htracking hlost)⟩

theorem withoutInput_taking (s : Selector) (f : Feed) (m n : Nat) (hmn : m ≤ n)
    (hn : n ≤ s.slotCount)
    (hdead : ∀ i, m < i → i ≤ n → f.Offers i → ∀ k, (s.taking f i).isLive f.now k = false) :
    (s.taking f n).setpoint.withoutInput = (s.taking f m).setpoint.withoutInput := by
  induction n, hmn using Nat.le_induction with
  | base => rfl
  | succ n hmn ih =>
    have ih := ih (by omega) fun i hi hin => hdead i hi (by omega)
    cases hx : f.sample n with
    | none => rw [taking_succ_of_none s f n hx, ih]
    | some x =>
      have hdead := hdead (n + 1) (by omega) (le_refl _) ⟨n, by omega, by rw [hx]; rfl⟩
      have hcount : n < (s.taking f n).slotCount := by
        rw [(taking_frame s f n).2.2]
        exact hn
      rw [taking_succ_of_some s f n x hx, deliver, if_pos hcount] at hdead ⊢
      rcases select_cases ((s.taking f n).record f.now n x) f.now with ⟨k, -, hk, -⟩ | ⟨-, hs⟩
      · have hlive := isLive_of_choice? hk
        rw [← isLive_select _ f.now, hdead k] at hlive
        cases hlive
      · rw [hs]
        exact ih

section FirstHeard

variable (s : Selector) (f : Feed) (d : Nat) (hd : f.First (fun _ => false) d)
  (hcount : d < s.slotCount)

include hd

theorem not_offers_first : ¬ f.Offers d := by
  rintro ⟨k, hk, hx⟩
  rw [hd.quiet k hk rfl] at hx
  cases hx

include hcount

theorem isLive_taking_first (k : Nat) :
    (s.taking f (d + 1)).isLive f.now k =
      if k = d then (s.taken f).isLive f.now d else s.isLive f.now k := by
  split
  · rename_i hk
    rw [hk, isLive_taking s f (d + 1) d hcount, if_pos (by omega)]
  · rename_i hk
    obtain ⟨hm, ht, -⟩ := taking_frame s f (d + 1)
    refine isLive_congr f.now k hm ht ?_
    rw [reading?_taking s f (d + 1) k hcount]
    split
    · have hquiet : f.sample k = none := hd.quiet k (by omega) rfl
      rw [Feed.reading?, hquiet]
      rfl
    · rfl

theorem isLive_taken_below (k : Nat) (hk : k < d) :
    (s.taken f).isLive f.now k = s.isLive f.now k := by
  have hlive := isLive_taking_first s f d hd hcount k
  rw [isLive_taking s f (d + 1) k hcount, if_pos (by omega), if_neg (by omega)] at hlive
  exact hlive

theorem selected_taking_first :
    (∃ k, s.selected = some k ∧ s.mode.isSticky = true ∧
      (s.taking f (d + 1)).isLive f.now k = true ∧
      (s.taking f (d + 1)).selected = some k) ∨
    ((∀ k, s.selected = some k → s.mode.isSticky = true →
      (s.taking f (d + 1)).isLive f.now k = false) ∧
      (s.taking f (d + 1)).selected = (s.taking f (d + 1)).lowestLive? f.now) := by
  obtain ⟨x, hx⟩ := Option.isSome_iff_exists.mp hd.offered
  have hstep := selected_taking_succ s f d x hcount hx
  rw [taking_of_quiet s f d (not_offers_first f d hd)] at hstep
  exact hstep

theorem selected_taking_first_of_wanted (hsticky : s.mode.isSticky = true)
    (hloose : ∀ k, s.selected = some k → s.isLive f.now k = false)
    (hheard : (s.taken f).isLive f.now d = true)
    (hwanted : s.selected = some d ∨ ∀ c, s.isLive f.now c = true → d ≤ c) :
    (s.taking f (d + 1)).selected = some d := by
  have hlive := isLive_taking_first s f d hd hcount
  rcases selected_taking_first s f d hd hcount with ⟨k, hk, -, hkept, hs⟩ | ⟨hdrop, hs⟩
  · rw [hlive k] at hkept
    split at hkept
    · rename_i hkd
      rw [hs, hkd]
    · rw [hloose k hk] at hkept
      cases hkept
  · have hld : (s.taking f (d + 1)).isLive f.now d = true := by
      rw [hlive d, if_pos rfl]
      exact hheard
    rcases hwanted with hpresent | hlow
    · rw [hdrop d hpresent hsticky] at hld
      cases hld
    · rw [hs, lowestLive?_eq_some_iff]
      refine ⟨hld, fun j hj => ?_⟩
      have hj : (s.taking f (d + 1)).isLive f.now j = true := hj
      rw [hlive j] at hj
      split at hj
      · omega
      · exact hlow j hj

theorem selected_taking_first_of_below (c : Nat)
    (hloose : ∀ k, s.selected = some k → s.isLive f.now k = false)
    (hleast : IsLeast {k | s.isLive f.now k = true} c) (hcd : c < d)
    (hpresent : s.selected ≠ some d) : (s.taking f (d + 1)).selected = some c := by
  have hlive := isLive_taking_first s f d hd hcount
  have hc : s.isLive f.now c = true := hleast.1
  rcases selected_taking_first s f d hd hcount with ⟨k, hk, -, hkept, -⟩ | ⟨-, hs⟩
  · rw [hlive k] at hkept
    split at hkept
    · rename_i hkd
      exact absurd (hkd ▸ hk) hpresent
    · rw [hloose k hk] at hkept
      cases hkept
  · rw [hs, lowestLive?_eq_some_iff]
    refine ⟨?_, fun j hj => ?_⟩
    · change (s.taking f (d + 1)).isLive f.now c = true
      rw [hlive c, if_neg (by omega)]
      exact hc
    · have hj : (s.taking f (d + 1)).isLive f.now j = true := hj
      rw [hlive j] at hj
      split at hj
      · omega
      · exact hleast.2 hj

theorem selected_taking_first_of_live (hsticky : s.mode.isSticky = true) (c : Nat)
    (hc : s.selected = some c) (hlive : (s.taking f (d + 1)).isLive f.now c = true) :
    (s.taking f (d + 1)).selected = some c := by
  rcases selected_taking_first s f d hd hcount with ⟨k, hk, -, -, hs⟩ | ⟨hdrop, -⟩
  · rw [hs, ← hk, hc]
  · rw [hdrop c hc hsticky] at hlive
    cases hlive

/-! ## With the selection and without -/

theorem selected_taking_of_kept (hkept : s.choice? f.now = s.selected) :
    ((s.select f.now).taking f (d + 1)).selected = (s.taking f (d + 1)).selected := by
  have hquiet := not_offers_first f d hd
  have ha : Agree False (s.taking f d) ((s.select f.now).taking f d) := by
    rw [taking_of_quiet s f d hquiet, taking_of_quiet _ f d hquiet]
    exact ⟨(selected_select s f.now).trans hkept, False.elim⟩
  exact (agree_taking_first ((Twins.refl s).select_right f.now) (Feed.Twins.refl s.mode f)
    hd hcount ha).1

theorem selected_taking_select (hold : s.mode.isSticky = true →
      (s.taken f).isLive f.now d = true → s.isLive f.now d = true) :
    ((s.select f.now).taking f (d + 1)).selected = (s.taking f (d + 1)).selected := by
  rcases choice?_cases s f.now with ⟨k, hk, -, -, hkept⟩ | ⟨hloose, -⟩
  · exact selected_taking_of_kept s f d hd hcount (hkept.trans hk.symm)
  · have hcount' : d < (s.select f.now).slotCount := hcount
    have hlive := isLive_taking_first s f d hd hcount
    have hstill : ∀ k, s.mode.isSticky = true → (s.taking f (d + 1)).isLive f.now k = true →
        s.isLive f.now k = true := by
      intro k hsticky hk
      rw [hlive k] at hk
      split at hk
      · rename_i hkd
        exact hkd ▸ hold hsticky hk
      · exact hk
    have hlow : ((s.select f.now).taking f (d + 1)).lowestLive? f.now =
        (s.taking f (d + 1)).lowestLive? f.now :=
      (twins_taking ((Twins.refl s).select_right f.now) (Feed.Twins.refl s.mode f)
        hcount).lowestLive? f.now
    rcases selected_taking_first s f d hd hcount with ⟨k, hk, hsticky, hkept, -⟩ | ⟨-, hs⟩
    · have := hloose k hk hsticky
      rw [hstill k hsticky hkept] at this
      cases this
    · rcases selected_taking_first (s.select f.now) f d hd hcount' with
        ⟨c, hc, hsticky, hkept, hs'⟩ | ⟨-, hs'⟩
      · have hsticky : s.mode.isSticky = true := hsticky
        rw [isLive_taking_select s f (d + 1) c hcount] at hkept
        rw [selected_select_of_loose s f.now hloose, lowestLive?_eq_some_iff] at hc
        rw [hs, hs', eq_comm, lowestLive?_eq_some_iff]
        exact ⟨hkept, fun j hj => hc.2 (hstill j hsticky hj)⟩
      · rw [hs, hs', hlow]

theorem selected_taken_of_first (hsticky : s.mode.isSticky = true)
    (hs : (s.taking f (d + 1)).selected = some d)
    (hheard : (s.taken f).isLive f.now d = true) : (s.taken f).selected = some d := by
  rw [taken_of_offers s f ⟨d, hcount, hd.offered⟩]
  refine selected_taking_of_live s f (d + 1) s.slotCount d hcount (le_refl _) hsticky hs ?_
  intro i hi hin
  rw [isLive_taking s f i d hin, if_pos (by omega)]
  exact hheard

theorem selected_taken_of_agree
    (ha : ((s.select f.now).taking f (d + 1)).selected = (s.taking f (d + 1)).selected) :
    ((s.select f.now).taken f).selected = (s.taken f).selected := by
  have hoffers : f.Offers (d + 1) := ⟨d, by omega, hd.offered⟩
  exact (agree_taken_of_taking ((Twins.refl s).select_right f.now) (Feed.Twins.refl s.mode f)
    hcount hoffers hoffers ⟨ha, False.elim⟩).1

theorem selected_of_forestalls (hsticky : s.mode.isSticky = true) (c : Nat)
    (h : Forestalls (fun k => s.isLive f.now k = true)
      (fun k => (s.taken f).isLive f.now k = true) s.selected d c) :
    (s.taken f).selected = some d ∧ ((s.select f.now).taken f).selected = some c := by
  have hloose : ∀ k, s.selected = some k → s.isLive f.now k = false := by
    intro k hk
    simpa using h.loose k hk
  constructor
  · refine selected_taken_of_first s f d hd hcount hsticky ?_ h.heard
    refine selected_taking_first_of_wanted s f d hd hcount hsticky hloose h.heard ?_
    rcases h.wanted with hpresent | hdc
    · exact Or.inl hpresent
    · refine Or.inr fun j hj => ?_
      have : c ≤ j := h.lowest.2 hj
      omega
  · have hc : (s.select f.now).selected = some c := by
      rw [selected_select_of_loose s f.now fun k hk _ => hloose k hk, lowestLive?_eq_some_iff]
      exact h.lowest
    have hoffers : f.Offers (s.select f.now).slotCount := ⟨d, hcount, hd.offered⟩
    rw [taken_of_offers _ f hoffers]
    refine selected_taking_of_live _ f 0 s.slotCount c (by omega) (le_refl _) hsticky hc ?_
    intro i _ hi
    rw [isLive_taking_select s f i c hi]
    exact isLive_taking_of_live s f i c hi h.lowest.1 h.lasting

theorem selected_taken_select_of_dead (hsticky : s.mode.isSticky = true) (c : Nat)
    (hc : (s.select f.now).selected = some c)
    (hleast : IsLeast {k | s.isLive f.now k = true} c) (hdc : d < c)
    (hheard : (s.taken f).isLive f.now d = true) (hdead : (s.taken f).isLive f.now c = false) :
    ((s.select f.now).taken f).selected = some d := by
  have hcount' : d < (s.select f.now).slotCount := hcount
  have hsettled := (s.select f.now).settled_taken f
  have hlive := isLive_taken_select s f
  have hfirst : ((s.select f.now).taking f (d + 1)).selected = some c := by
    refine selected_taking_first_of_live _ f d hd hcount' hsticky c hc ?_
    rw [isLive_taking_select s f (d + 1) c hcount, isLive_taking_first s f d hd hcount,
      if_neg (by omega)]
    exact hleast.1
  have hlow : ∀ i, d + 1 < i → i ≤ (s.select f.now).slotCount →
      ((s.select f.now).taking f i).isLive f.now d = true := by
    intro i hi hin
    rw [isLive_taking _ f i d hin, if_pos (by omega), hlive]
    exact hheard
  have hlast := selected_taking_of_low (s.select f.now) f (d + 1) _ d hcount' (le_refl _) hlow
  rw [← taken_of_offers _ f ⟨d, hcount', hd.offered⟩, hfirst] at hlast
  rcases hlast with hs | ⟨e, he, hs⟩
  · have := isLive_of_selected hsettled hs
    rw [hlive, hdead] at this
    cases this
  · have helive := isLive_of_selected hsettled hs
    rcases Nat.lt_or_eq_of_le he with hed | rfl
    · rw [hlive, isLive_taken_below s f d hd hcount e hed] at helive
      have : c ≤ e := hleast.2 helive
      omega
    · exact hs

theorem selected_taken_of_none_live (hsticky : s.mode.isSticky = true)
    (hdead : ∀ k, s.isLive f.now k = false) (hheard : (s.taken f).isLive f.now d = true) :
    ((s.select f.now).taken f).selected = (s.taken f).selected := by
  have hselected := selected_select_of_loose s f.now fun k _ _ => hdead k
  rw [(lowestLive?_eq_none_iff s f.now).mpr hdead] at hselected
  have hs := selected_taking_first_of_wanted s f d hd hcount hsticky (fun k _ => hdead k) hheard
    (Or.inr fun c hc => by simp [hdead c] at hc)
  have hs' := selected_taking_first_of_wanted (s.select f.now) f d hd hcount hsticky
    (by simp [hselected]) (isLive_taken_select s f d ▸ hheard)
    (Or.inr fun c hc => by simp [hdead c] at hc)
  exact selected_taken_of_agree s f d hd hcount (hs'.trans hs.symm)

theorem selected_taken_of_below (hsticky : s.mode.isSticky = true)
    (hloose : ∀ k, s.selected = some k → s.isLive f.now k = false) (c : Nat)
    (hleast : IsLeast {k | s.isLive f.now k = true} c) (hcd : c < d)
    (hpresent : s.selected ≠ some d) :
    ((s.select f.now).taken f).selected = (s.taken f).selected := by
  have hcount' : d < (s.select f.now).slotCount := hcount
  have hselected := selected_select_of_loose s f.now fun k hk _ => hloose k hk
  rw [(lowestLive?_eq_some_iff s f.now c).mpr hleast] at hselected
  have hs := selected_taking_first_of_below s f d hd hcount c hloose hleast hcd hpresent
  have hs' : ((s.select f.now).taking f (d + 1)).selected = some c := by
    refine selected_taking_first_of_live _ f d hd hcount' hsticky c hselected ?_
    rw [isLive_taking_select s f (d + 1) c hcount, isLive_taking_first s f d hd hcount,
      if_neg (by omega)]
    exact hleast.1
  exact selected_taken_of_agree s f d hd hcount (hs'.trans hs.symm)

theorem selected_of_fresh (hsticky : s.mode.isSticky = true)
    (hloose : ∀ k, s.selected = some k → s.isLive f.now k = false)
    (hfresh : s.isLive f.now d = false) (hheard : (s.taken f).isLive f.now d = true)
    (hno : ∀ c, ¬ Forestalls (fun k => s.isLive f.now k = true)
      (fun k => (s.taken f).isLive f.now k = true) s.selected d c) :
    ((s.select f.now).taken f).selected = (s.taken f).selected := by
  cases hlow : s.lowestLive? f.now with
  | none =>
    have hdead := (lowestLive?_eq_none_iff s f.now).mp hlow
    exact selected_taken_of_none_live s f d hd hcount hsticky hdead hheard
  | some c =>
    have hleast := (lowestLive?_eq_some_iff s f.now c).mp hlow
    have hc : s.isLive f.now c = true := hleast.1
    have hne : c ≠ d := by
      rintro rfl
      cases hc.symm.trans hfresh
    by_cases hwanted : s.selected = some d ∨ d < c
    · -- Were slot `c` live at the end, it would have kept out the first slot heard.
      have hdead : (s.taken f).isLive f.now c = false := by
        by_contra hlasting
        refine hno c ⟨?_, hleast, by simpa using hlasting, by simp [hfresh], hheard, hwanted⟩
        intro k hk
        simp [hloose k hk]
      have hdc : d < c := by
        by_contra hcd
        rw [isLive_taken_below s f d hd hcount c (by omega), hc] at hdead
        cases hdead
      have hselected := selected_select_of_loose s f.now fun k hk _ => hloose k hk
      rw [hlow] at hselected
      have hs := selected_taking_first_of_wanted s f d hd hcount hsticky hloose hheard
        (Or.inr fun j hj => le_of_lt (lt_of_lt_of_le hdc (hleast.2 hj)))
      rw [selected_taken_of_first s f d hd hcount hsticky hs hheard]
      exact selected_taken_select_of_dead s f d hd hcount hsticky c hselected hleast hdc hheard
        hdead
    · push Not at hwanted
      exact selected_taken_of_below s f d hd hcount hsticky hloose c hleast (by omega) hwanted.1

/-- A selection ahead changes the slot that a cycle ends on exactly if it forestalls another. -/
theorem selected_taken_select_iff :
    ((s.select f.now).taken f).selected = (s.taken f).selected ↔
      ¬ (s.mode.isSticky = true ∧ ∃ c, Forestalls (fun k => s.isLive f.now k = true)
        (fun k => (s.taken f).isLive f.now k = true) s.selected d c) := by
  constructor
  · rintro heq ⟨hsticky, c, hc⟩
    obtain ⟨hs, hs'⟩ := selected_of_forestalls s f d hd hcount hsticky c hc
    rw [hs, hs'] at heq
    cases heq
    exact hc.fresh hc.lowest.1
  · intro hno
    by_cases hold : s.mode.isSticky = true → (s.taken f).isLive f.now d = true →
        s.isLive f.now d = true
    · exact selected_taken_of_agree s f d hd hcount (selected_taking_select s f d hd hcount hold)
    · push Not at hold
      obtain ⟨hsticky, hheard, hfresh⟩ := hold
      rcases choice?_cases s f.now with ⟨k, hk, -, -, hkept⟩ | ⟨hloose, -⟩
      · exact selected_taken_of_agree s f d hd hcount
          (selected_taking_of_kept s f d hd hcount (hkept.trans hk.symm))
      · exact selected_of_fresh s f d hd hcount hsticky (fun k hk => hloose k hk hsticky)
          (by simpa using hfresh) hheard fun c hc => hno ⟨hsticky, c, hc⟩

/-! ## What is left in an invalid setpoint -/

theorem setpoint_taking_first (k : Nat) (r : Reading)
    (hk : (s.taking f (d + 1)).selected = some k)
    (hr : (s.taking f (d + 1)).reading? k = some r) :
    (s.taking f (d + 1)).setpoint = s.setpoint.showing k r.sample := by
  obtain ⟨x, hx⟩ := Option.isSome_iff_exists.mp hd.offered
  rw [taking_succ_of_some s f d x hx, taking_of_quiet s f d (not_offers_first f d hd), deliver,
    if_pos hcount] at hk hr ⊢
  rw [selected_select] at hk
  rcases select_cases (s.record f.now d x) f.now with ⟨k', r', hk', hr', hs⟩ | ⟨hk', -⟩
  · cases hk.symm.trans hk'
    cases hr.symm.trans hr'
    exact hs
  · cases hk.symm.trans hk'

theorem setpoint_taken_of_other (hlost : ∀ k, (s.taken f).isLive f.now k = false) (j : Nat)
    (hjd : j ≠ d) (hj : s.isLive f.now j = true) :
    ((s.select f.now).taken f).setpoint = (s.taken f).setpoint := by
  have hcount' : d < (s.select f.now).slotCount := hcount
  have hoffers : f.Offers (d + 1) := ⟨d, by omega, hd.offered⟩
  have htwins := (Twins.refl s).select_right f.now
  have hfeed := Feed.Twins.refl s.mode f
  have hsettled := settled_taking s f (d + 1) hcount hoffers
  have hjlive : (s.taking f (d + 1)).isLive f.now j = true := by
    rw [isLive_taking_first s f d hd hcount, if_neg hjd]
    exact hj
  have hselected := selected_taking_select s f d hd hcount (by simp [hlost d])
  obtain ⟨k, hk⟩ := Option.ne_none_iff_exists'.mp (selected_ne_none hsettled hjlive)
  obtain ⟨r, hr, -⟩ := (isLive_iff _ f.now k).mp (isLive_of_selected hsettled hk)
  have hr' := ((twins_taking htwins hfeed (n := d + 1) hcount).reading k rfl).trans hr
  have ha : Agree True (s.taking f (d + 1)) ((s.select f.now).taking f (d + 1)) := by
    refine ⟨hselected, fun _ => ?_⟩
    rw [setpoint_taking_first s f d hd hcount k r hk hr,
      setpoint_taking_first _ f d hd hcount' k r (hselected.trans hk) hr']
    rcases select_cases s f.now with ⟨_, _, -, -, hs⟩ | ⟨-, hs⟩
    · rw [hs]
      rfl
    · rw [hs]
      rfl
  exact (agree_taken_of_taking htwins hfeed hcount hoffers hoffers ha).2 trivial

theorem setpoint_taken_of_only (hlost : ∀ k, (s.taken f).isLive f.now k = false)
    (honly : ∀ k, s.isLive f.now k = true → k = d) :
    (s.taken f).setpoint = s.setpoint.withoutInput := by
  have hkeeps : (s.taken f).setpoint.withoutInput = s.setpoint.withoutInput := by
    rw [taken_of_offers s f ⟨d, hcount, hd.offered⟩]
    refine withoutInput_taking s f 0 s.slotCount (Nat.zero_le _) (le_refl _) ?_
    intro i _ hi hoffers k
    refine isLive_taking_of_only s f d i k ?_ hi hlost honly
    by_contra hid
    obtain ⟨j, hj, hx⟩ := hoffers
    exact not_offers_first f d hd ⟨j, by omega, hx⟩
  cases s.settled_taken f with
  | showing k r live _ _ =>
    rw [hlost k] at live
    cases live
  | lost _ hsp => rw [hsp, hkeeps]

theorem setpoint_taken_select_iff (hlost : ∀ k, (s.taken f).isLive f.now k = false) :
    ((s.select f.now).taken f).setpoint = (s.taken f).setpoint ↔
      ¬ Leaks (fun k => s.isLive f.now k = true) (fun k => (s.taken f).isLive f.now k = true)
        (s.reading? d) s.setpoint d := by
  by_cases hother : ∃ j, j ≠ d ∧ s.isLive f.now j = true
  · obtain ⟨j, hjd, hj⟩ := hother
    refine iff_of_true (setpoint_taken_of_other s f d hd hcount hlost j hjd hj) ?_
    intro h
    exact hjd ((h.only j).mp hj)
  · have honly : ∀ k, s.isLive f.now k = true → k = d := by
      intro k hk
      by_contra hkd
      exact hother ⟨k, hkd, hk⟩
    rw [setpoint_taken_of_only s f d hd hcount hlost honly,
      setpoint_taken_of_only (s.select f.now) f d hd hcount
        (fun k => (isLive_taken_select s f k).trans (hlost k)) honly]
    rcases select_cases s f.now with ⟨k, r, hk, hr, hs⟩ | ⟨hk, hs⟩
    · have hlive := isLive_of_choice? hk
      cases honly k hlive
      rw [hs, Setpoint.withoutInput_showing_iff]
      constructor
      · rintro heq ⟨-, -, r', hr', hdiffers⟩
        cases hr.symm.trans hr'
        exact hdiffers heq
      · intro hno
        by_contra hdiffers
        refine hno ⟨fun k => ⟨honly k, ?_⟩, by simp [hlost], r, hr, hdiffers⟩
        rintro rfl
        exact hlive
    · rw [hs]
      refine iff_of_true rfl fun h => ?_
      have hlive := (h.only d).mpr rfl
      rw [(choice?_eq_none_iff s f.now).mp hk d] at hlive
      cases hlive

/-- A selection ahead changes what a cycle ends with exactly if there is a hazard. -/
theorem endsAlike_select_iff (tracking : Prop) :
    EndsAlike tracking (s.taken f) ((s.select f.now).taken f) ↔
      ¬ HazardAt tracking s f d := by
  rw [EndsAlike, selected_taken_select_iff s f d hd hcount, HazardAt, Hazard, not_or,
    and_congr_right_iff]
  intro _
  cases hvalid : (s.taken f).setpoint.valid with
  | true =>
    refine iff_of_true (by simp) ?_
    rintro ⟨-, hleaks⟩
    obtain ⟨k, hk⟩ := (valid_iff_of_settled (s.settled_taken f)).mp hvalid
    exact hleaks.lost k hk
  | false =>
    have hlost : ∀ k, (s.taken f).isLive f.now k = false := by
      intro k
      by_contra hk
      have := (valid_iff_of_settled (s.settled_taken f)).mpr ⟨k, by simpa using hk⟩
      cases hvalid.symm.trans this
    rw [setpoint_taken_select_iff s f d hd hcount hlost]
    simp

end FirstHeard

/-! ## Two cycles -/

variable {hidden : Nat → Bool} {tracking : Prop} {s t : Selector} {f g : Feed}

theorem hazardAt_twins (h : Twins hidden s t) (ha : Agree tracking s t)
    (hfeed : Feed.Twins hidden s.mode f g) (d : Nat) (hd : hidden d = false) :
    HazardAt tracking t g d ↔ HazardAt tracking s f d := by
  have hbefore : (fun k => t.isLive f.now k = true) = fun k => s.isLive f.now k = true :=
    funext fun k => by rw [h.isLive]
  have hafter : (fun k => (t.taken g).isLive f.now k = true) =
      fun k => (s.taken f).isLive f.now k = true :=
    funext fun k => by rw [(h.taken hfeed).isLive]
  unfold HazardAt Hazard
  rw [hfeed.now, hbefore, hafter, h.mode, ha.1, h.reading d hd]
  refine or_congr_right (and_congr_right fun htracking => ?_)
  rw [ha.2 htracking]

theorem valid_taken (h : Twins hidden s t) (hfeed : Feed.Twins hidden s.mode f g) :
    (t.taken g).setpoint.valid = (s.taken f).setpoint.valid := by
  have ht := t.settled_taken g
  rw [hfeed.now] at ht
  rw [Bool.eq_iff_iff, valid_iff_of_settled ht, valid_iff_of_settled (s.settled_taken f),
    funext ((h.taken hfeed).isLive f.now)]

theorem endsAlike_of_ahead_iff (h : Twins hidden s t) (ha : Agree tracking s t)
    (hfeed : Feed.Twins hidden s.mode f g) (d : Nat) (hcount : d < s.slotCount)
    (hd : f.First hidden d) (hdiff : ¬ (f.Offers d ↔ g.Offers d)) :
    EndsAlike tracking (s.taken f) (t.taken g) ↔ ¬ HazardAt tracking s f d := by
  have hcount' : d < t.slotCount := h.slotCount ▸ hcount
  have hd' := hd.twin hfeed
  by_cases hf : f.Offers d
  · have hg : ¬ g.Offers d := fun hg => hdiff (iff_of_true hf hg)
    have hagree := agree_taken_of_ahead h ha hfeed hcount hd hf hg
    have hiff := endsAlike_select_iff t g d (hd'.of_not_offers hg) hcount' tracking
    have hvalid := valid_taken ((Twins.refl t).select_right f.now) (Feed.Twins.refl t.mode g)
    rw [← hazardAt_twins h ha hfeed d hd.seen, ← hiff, hfeed.now]
    constructor
    · intro hends
      exact (hends.symm (valid_taken h hfeed)).of_right hagree.symm
    · intro hends
      exact (hends.symm hvalid).of_left hagree
  · have hg : g.Offers d := by
      by_contra hg
      exact hdiff (iff_of_false hf hg)
    have hagree := agree_taken_of_ahead h.symm ha.symm (h.mode ▸ hfeed.symm) hcount' hd' hg hf
    rw [hfeed.now] at hagree
    rw [← endsAlike_select_iff s f d (hd.of_not_offers hf) hcount tracking]
    exact ⟨fun hends => hends.of_right hagree.symm, fun hends => hends.of_right hagree⟩

/-- Twins end a cycle alike exactly if what one of them hears ahead is no hazard. -/
theorem endsAlike_taken_iff (h : Twins hidden s t) (ha : Agree tracking s t)
    (hfeed : Feed.Twins hidden s.mode f g) :
    EndsAlike tracking (s.taken f) (t.taken g) ↔
      ∀ d < s.slotCount, f.First hidden d → ¬ (f.Offers d ↔ g.Offers d) →
        ¬ HazardAt tracking s f d := by
  constructor
  · intro hends d hcount hd hdiff
    exact (endsAlike_of_ahead_iff h ha hfeed d hcount hd hdiff).mp hends
  · intro hsafe
    by_cases hahead : ∀ d < s.slotCount, f.First hidden d → (f.Offers d ↔ g.Offers d)
    · have hagree := agree_taken h ha hfeed hahead
      exact ⟨hagree.1, fun htracking _ => hagree.2 htracking⟩
    · push Not at hahead
      obtain ⟨d, hcount, hd, hdiff⟩ := hahead
      have hdiff : ¬ (f.Offers d ↔ g.Offers d) := by tauto
      exact (endsAlike_of_ahead_iff h ha hfeed d hcount hd hdiff).mpr (hsafe d hcount hd hdiff)

end Selector

end StickArbiter
