import StickArbiter.Proofs.Indifference

/-!
# Parameters put into effect in vain

Putting the parameters in effect into effect once more changes nothing. Of several sets in a row
only the last one counts.
-/

namespace StickArbiter

namespace Arbiter

variable {a : Arbiter} {p q : Parameters} {f : Feed}

theorem applyParameters_of_configured (h : a.Configured p) : a.applyParameters p = a := by
  have harm : a.gestures.arm.setDelayFrom false p.armHysteresis = a.gestures.arm := by
    rw [← h.armDelay]
    rfl
  have hdisarm : a.gestures.disarm.setDelayFrom false p.armHysteresis = a.gestures.disarm := by
    rw [← h.disarmDelay]
    rfl
  unfold applyParameters GestureDetector.setDelay
  rw [harm, hdisarm, ← h.mode, ← h.timeout, ← h.parameters]

theorem observe_polled (h : a.Configured p) (hf : f.parameters = none) :
    a.observe { f with parameters := some p } = a.observe f := by
  have hcounted : { a with status := a.status.record f.now }.Configured p :=
    ⟨h.parameters, h.mode, h.timeout, h.armDelay, h.disarmDelay⟩
  have hbegin : a.begin { f with parameters := some p } = a.begin f := by
    unfold begin
    rw [hf]
    exact applyParameters_of_configured hcounted
  unfold observe
  rw [hbegin]

theorem observe_overruled (a : Arbiter) (p : Parameters) (hf : f.parameters = some q) :
    (a.applyParameters p).observe f = a.observe f := by
  have hbegin : (a.applyParameters p).begin f = a.begin f := by
    unfold begin
    rw [hf]
    rfl
  unfold observe
  rw [hbegin]

end Arbiter

namespace History

/-- The second history is the first with parameters put into effect that make no difference. -/
inductive Padded : History → History → Prop
  | create (count : Nat) (p : Parameters) (pollInterval : Span) :
    Padded (.create count p pollInterval) (.create count p pollInterval)
  | cycle {past past' : History} (f : Feed) (d : Downlink) (padded : Padded past past') :
    Padded (past.cycle f d) (past'.cycle f d)
  | apply {past past' : History} (p : Parameters) (padded : Padded past past') :
    Padded (past.apply p) (past'.apply p)
  | again {past past' : History} (padded : Padded past past') :
    Padded past (past'.apply past'.arbiter.parameters)
  | polled {past past' : History} (f : Feed) (d : Downlink) (padded : Padded past past')
      (idle : f.parameters = none) :
    Padded (past.cycle f d) (past'.cycle { f with parameters := past'.arbiter.parameters } d)
  | overruled {past past' : History} (p q : Parameters) (padded : Padded past past') :
    Padded (past.apply q) ((past'.apply p).apply q)
  | overruledByPoll {past past' : History} (p q : Parameters) (f : Feed) (d : Downlink)
      (padded : Padded past past') (news : f.parameters = some q) :
    Padded (past.cycle f d) ((past'.apply p).cycle f d)

variable {past past' : History}

theorem configured_parameters (past : History) :
    past.arbiter.Configured past.arbiter.parameters := by
  have h := past.configured_arbiter
  rwa [← h.parameters] at h

theorem Padded.sameEffects (h : Padded past past') : SameEffects past past' := by
  induction h with
  | create => exact ⟨⟨rfl, rfl⟩, rfl⟩
  | cycle f d _ ih =>
    refine ih.toSameCycles.cycle d d rfl ?_
    rw [ih.arbiter]
  | apply p _ ih => exact ih.apply p
  | @again past past' _ ih =>
    have hsame := Arbiter.applyParameters_of_configured past'.configured_parameters
    exact ⟨⟨ih.sends, ih.arbiters⟩, hsame.trans ih.arbiter⟩
  | @polled past past' f d _ hidle ih =>
    refine ih.toSameCycles.cycle d d rfl ?_
    rw [Arbiter.observe_polled past'.configured_parameters hidle, ih.arbiter]
  | overruled p q _ ih =>
    have hlast := ih.apply q
    exact ⟨⟨ih.sends, ih.arbiters⟩, hlast.arbiter⟩
  | @overruledByPoll past past' p q f d _ hnews ih =>
    have hcycles : SameCycles past (past'.apply p) := ⟨ih.sends, ih.arbiters⟩
    refine hcycles.cycle d d rfl ?_
    rw [← ih.arbiter]
    exact past'.arbiter.observe_overruled p hnews

/-- A history with more parameters put into effect, in effect already or overruled before the next
cycle, sends the same in every cycle and leaves the same arbiters. -/
theorem same_of_padded :
    (∀ past : History, past.arbiter.Configured past.arbiter.parameters ∧
      ∀ arm, (past.arbiter.gestures.of arm).delayFromTrue = .zero) ∧
    ∀ past past' : History, Padded past past' →
      past'.sends = past.sends ∧
      past'.cycles.map History.arbiter = past.cycles.map History.arbiter ∧
      past'.arbiter = past.arbiter := by
  refine ⟨fun past => ⟨past.configured_parameters, past.release_arbiter⟩, ?_⟩
  intro past past' h
  have heffects := h.sameEffects
  exact ⟨heffects.sends, heffects.arbiters, heffects.arbiter⟩

def armShown : History :=
  .cycle (.create 1 {} defaultPollInterval) (showing true .zero none) .open

def armHeld : Feed := showing true (.ofMillis 1000) none

/-- Parameters put into effect once more while the gesture waits do not put off its request. -/
theorem same_armShown :
    let again := armShown.apply armShown.arbiter.parameters
    let held := again.cycle { armHeld with parameters := again.arbiter.parameters } .open
    held.sends = (armShown.cycle armHeld .open).sends ∧
      held.sends.map (·.1.filterMap Call.command?) = [[], [.request true (.ofMillis 1000)]] := by
  intro again held
  have hpadded : Padded (armShown.cycle armHeld .open) held :=
    .polled _ _ (.again (.cycle _ _ (.create _ _ _))) rfl
  have hsends := (same_of_padded.2 _ _ hpadded).1
  refine ⟨hsends, ?_⟩
  rw [hsends]
  decide +kernel

end History

end StickArbiter
