import StickArbiter.Proofs.Interference

/-!
# What unusable samples change of what is used

Valid setpoints, commands and wakeups depend on unusable samples only where a slot selected ahead of
a cycle keeps out the first one heard.
-/

namespace StickArbiter

/-- A call, whatever an invalid setpoint in it holds. -/
def Call.usable : Call → Call
  | .command c => .command c
  | .publish sp => .publish (if sp.valid then sp else .invalid)

def Outcome.usable (o : Outcome) : List Call × Wakeup := (o.calls.map Call.usable, o.wakeup)

namespace Arbiter

variable {hidden : Nat → Bool} {a b : Arbiter} {f g : Feed}

theorem usable_handleInvalid (d d' : Downlink) (h : Alike hidden a b)
    (ha : a.setpoint.valid = false) (hb : b.setpoint.valid = false) :
    (b.handleInvalid d').usable = (a.handleInvalid d).usable := by
  unfold handleInvalid
  rw [h.phase]
  cases a.phase with
  | lossAnnounced => simp [Outcome.usable, h.pollInterval]
  | tracking => simp [Outcome.usable, Call.usable, ha, hb, h.pollInterval]

/-- Two cycles send the same for use exactly if they end on the same slot. -/
theorem cycle_usable (d d' : Downlink) (hnow : g.now = f.now)
    (h : Alike hidden (a.observe f) (b.observe g)) :
    let same := (b.observe g).selector.selected = (a.observe f).selector.selected
    ((b.cycle g d').usable = (a.cycle f d).usable ↔ same) ∧
      (same → Alike hidden (a.cycle f d).arbiter (b.cycle g d').arbiter ∧
        (b.cycle g d').arbiter.selector.selected = (a.cycle f d).arbiter.selector.selected) := by
  intro same
  have ha : (a.observe f).selector.Settled f.now := (a.begin f).selector.settled_taken f
  have hb : (b.observe g).selector.Settled f.now := hnow ▸ (b.begin g).selector.settled_taken g
  have hvalid := valid_eq h.slots ha hb
  cases hv : (a.observe f).setpoint.valid with
  | true =>
    rw [hv] at hvalid
    rw [cycle_of_valid a f d hv, cycle_of_valid b g d' hvalid]
    have hpublish : same → ((b.observe g).publishValid g d').sends =
        ((a.observe f).publishValid f d).sends ∧
          Twins hidden ((a.observe f).publishValid f d).arbiter
            ((b.observe g).publishValid g d').arbiter := by
      intro hs
      obtain ⟨k, x, hka, hkb⟩ := showing_of_selected h.slots ha hb hv hs
      exact publishValid_twins d d' h hnow hka hkb
    refine ⟨⟨fun heq => congrArg (fun sends => sends.2.onInput) heq, ?_⟩, ?_⟩ <;> intro hs
    · exact congrArg (fun sends => (sends.1.map Call.usable, sends.2)) (hpublish hs).1
    · exact ⟨(hpublish hs).2.toAlike, (hpublish hs).2.agree.1⟩
  | false =>
    rw [hv] at hvalid
    rw [cycle_of_invalid a f d hv, cycle_of_invalid b g d' hvalid]
    have hs : same :=
      (Selector.selected_eq_none hb hvalid).trans (Selector.selected_eq_none ha hv).symm
    obtain ⟨-, htwins⟩ := handleInvalid_twins d d' h hs
    exact ⟨iff_of_true (usable_handleInvalid d d' h hv hvalid) hs,
      fun _ => ⟨htwins.toAlike, htwins.agree.1⟩⟩

end Arbiter

namespace History

def usable : History → List (List Call × Wakeup)
  | create _ _ _ => []
  | cycle past f d => past.usable ++ [(past.outcome f d).usable]
  | apply past _ => past.usable

/-- One of two cycles hears something hidden ahead of the first other slot, which is then kept out.
-/
def Bars (hidden : Nat → Bool) (past : History) (f g : Feed) : Prop :=
  ∃ d < past.count, f.First hidden d ∧ ¬ (f.Offers d ↔ g.Offers d) ∧
    (past.cycle f .open).inEffect.mode.isSticky = true ∧
    ∃ c, Forestalls (past.LiveUnder (past.cycle f .open).inEffect f.now)
      ((past.cycle f .open).Live f.now) past.arbiter.setpoint.slot d c

def Barred (hidden : Nat → Bool) : History → History → Prop
  | cycle past f _, cycle past' g _ => Barred hidden past past' ∨ Bars hidden past f g
  | apply past _, apply past' _ => Barred hidden past past'
  | _, _ => False

variable {hidden : Nat → Bool} {m : Mode} {past past' : History} {f g : Feed}

theorem cycle_usable_iff (d d' : Downlink) (hm : past.inEffect.mode = m)
    (hfeed : f.Twins hidden m g) (hmode : ∀ p, f.parameters = some p → p.mode = m)
    (h : Arbiter.Alike hidden past.arbiter past'.arbiter)
    (hs : past'.arbiter.selector.selected = past.arbiter.selector.selected) :
    ((past'.outcome g d').usable = (past.outcome f d).usable ↔ ¬ Bars hidden past f g) ∧
      (¬ Bars hidden past f g →
        Arbiter.Alike hidden (past.cycle f d).arbiter (past'.cycle g d').arbiter ∧
          (past'.cycle g d').arbiter.selector.selected =
            (past.cycle f d).arbiter.selector.selected) := by
  have hmode' : past.arbiter.selector.mode = m := past.configured_arbiter.mode.trans hm
  have hbegin := h.begin hfeed fun p hp => (hmode p hp).trans hmode'.symm
  have hm' := mode_begin hm hmode
  have hsame : (past'.arbiter.begin g).selector.selected =
      (past.arbiter.begin f).selector.selected := by
    rw [Arbiter.selected_begin, Arbiter.selected_begin, hs]
  obtain ⟨hsends, hleft⟩ := Arbiter.cycle_usable d d' hfeed.now (hbegin.observe (hm' ▸ hfeed))
  -- Without regard to what a loss leaves in the setpoint, two cycles end alike on the same slot.
  have hagree : Selector.Agree False (past.arbiter.begin f).selector
      (past'.arbiter.begin g).selector := ⟨hsame, False.elim⟩
  have hends := Selector.endsAlike_taken_iff hbegin.slots hagree (hm' ▸ hfeed)
  have hbars : (past'.arbiter.observe g).selector.selected =
      (past.arbiter.observe f).selector.selected ↔ ¬ Bars hidden past f g := by
    refine (and_iff_left fun h => h.elim).symm.trans (hends.trans ?_)
    rw [past.slotCount_begin f]
    constructor
    · rintro hsafe ⟨k, hk, hfirst, hdiff, hkept⟩
      exact hsafe k hk hfirst hdiff ((past.hazard_begin f False k hk).mp (.inl hkept))
    · intro hno k hk hfirst hdiff hhazard
      obtain hkept | ⟨h, -⟩ := (past.hazard_begin f False k hk).mpr hhazard
      · exact hno ⟨k, hk, hfirst, hdiff, hkept⟩
      · exact h
  exact ⟨hsends.trans hbars, fun hno => hleft (hbars.mpr hno)⟩

theorem usable_alike (h : Alike hidden m past past') :
    (past'.usable = past.usable ↔ ¬ Barred hidden past past') ∧
      (¬ Barred hidden past past' → Arbiter.Alike hidden past.arbiter past'.arbiter ∧
        past'.arbiter.selector.selected = past.arbiter.selector.selected) := by
  induction h with
  | create count p pollInterval _ =>
    have htwins := twins_create hidden count p pollInterval
    exact ⟨iff_of_true rfl id, fun _ => ⟨htwins.toAlike, htwins.agree.1⟩⟩
  | @cycle past past' f g d d' halike hfeed hmode ih =>
    rw [usable, usable, Barred, not_or, List.append_singleton_inj, ih.1]
    have hstep := fun hno =>
      cycle_usable_iff d d' (mode_of_alike halike) hfeed hmode (ih.2 hno).1 (ih.2 hno).2
    refine ⟨and_congr_right fun hno => (hstep hno).1, ?_⟩
    rintro ⟨hno, hfree⟩
    exact (hstep hno).2 hfree
  | apply p halike hmode ih =>
    refine ⟨ih.1, fun hno => ⟨(ih.2 hno).1.applyParameters p ?_, (ih.2 hno).2⟩⟩
    rw [hmode, (configured_arbiter _).mode, mode_of_alike halike]

/-- Two histories that differ only in unusable samples send the same valid setpoints, commands,
losses and wakeups exactly if no slot selected ahead of a cycle keeps out the first one heard. -/
theorem usable_eq_iff_not_barred (h : Alike hidden m past past') :
    past'.usable = past.usable ↔ ¬ Barred hidden past past' := (usable_alike h).1

theorem not_barred_of_not_sticky (h : Alike hidden m past past') (hm : m.isSticky = false) :
    ¬ Barred hidden past past' := by
  induction h with
  | create count p pollInterval _ => exact id
  | @cycle past past' f g d d' halike hfeed hmode ih =>
    rintro (hbarred | ⟨-, -, -, -, hsticky, -⟩)
    · exact ih hbarred
    · rw [mode_of_alike (halike.cycle .open .open hfeed hmode), hm] at hsticky
      cases hsticky
  | apply p halike hmode ih => exact ih

/-- In a mode that does not stick, unusable samples change nothing of what is used. -/
theorem usable_eq_of_not_sticky (h : Alike hidden m past past') (hm : m.isSticky = false) :
    past'.usable = past.usable :=
  (usable_eq_iff_not_barred h).mpr (not_barred_of_not_sticky h hm)

end History

end StickArbiter
