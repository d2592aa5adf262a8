import StickArbiter.Proofs.History
import StickArbiter.Proofs.Traffic

/-!
# Courses

A course is what happens to a bus and its arbiter: sends, leaving senders, cycles. Every reading
comes from a send that no earlier cycle could have taken.
-/

namespace StickArbiter

/-! ## What the arbiter counts -/

namespace Arbiter

theorem status_cycle (a : Arbiter) (f : Feed) (d : Downlink) :
    (a.cycle f d).arbiter.status = a.status.record f.now := by
  have hseen : (a.observe f).status = a.status.record f.now := by
    unfold observe begin
    cases f.parameters <;> rfl
  cases h : (a.observe f).setpoint.valid
  · rw [cycle_of_invalid a f d h, ← hseen]
    unfold handleInvalid
    cases (a.observe f).phase <;> rfl
  · rw [cycle_of_valid a f d h, ← hseen]
    rfl

end Arbiter

theorem CycleStatus.maxInterval_le_record (s : CycleStatus) (now : Instant) :
    s.maxInterval ≤ (s.record now).maxInterval := by
  rw [Span.le_def]
  exact Nat.le_max_left _ _

theorem CycleStatus.since_le_record {s : CycleStatus} {last : Instant} (now : Instant)
    (h : s.lastCycle = some last) : now.since last ≤ (s.record now).maxInterval := by
  rw [Span.le_def]
  simp [record, h, Span.longer]

namespace Latest

variable {α : Type}

theorem step_send {c : Latest α} (hr : c.hasReader = true) (hs : c.hasSender = true) (a : α) :
    c.step (.send a) = { c with value := a, sent := c.sent + 1 } := by
  simp [step, send, hr, hs]

theorem offers_iff (c : Latest α) :
    c.offers = true ↔ c.hasSender = true ∧ c.isFresh = true := by
  simp [offers]

theorem offers_polled (c : Latest α) : c.polled.offers = false := by
  have hnone := c.poll?_polled
  cases h : c.polled.offers with
  | false => rfl
  | true => simp [poll?, h] at hnone

theorem sound_step {c : Latest α} (h : c.hasReader = true ∧ c.passed ≤ c.sent) (m : Move α) :
    (c.step m).hasReader = true ∧ (c.step m).passed ≤ (c.step m).sent := by
  rw [hasReader_step]
  exact ⟨h.1, (passed_step_le h.2 m).2⟩

theorem sound_after {c : Latest α} (h : c.hasReader = true ∧ c.passed ≤ c.sent)
    (ms : List (Move α)) :
    (c.after ms).hasReader = true ∧ (c.after ms).passed ≤ (c.after ms).sent := by
  rw [hasReader_after]
  exact ⟨h.1, (passed_le_after h.2 ms).2⟩

end Latest

/-! ## Courses -/

inductive Course
  | start (slots : Nat) (known : Parameters) (count : Nat) (p : Parameters) (pollInterval : Span)
  | send (past : Course) (time : Instant) (l : Line) (x : l.Value)
  | leave (past : Course) (time : Instant) (l : Line)
  /-- Something is done with the output. -/
  | aside (past : Course) (use : Bus → Bus) (keeps : ∀ b l, (use b).channel? l = b.channel? l)
  | cycle (past : Course) (now : Instant)

namespace Course

mutual

def bus : Course → Bus
  | start slots known _ _ _ => .ofCount slots known
  | send past _ l x => past.bus.step ⟨l, .send x⟩
  | leave past _ l => past.bus.step ⟨l, .leave⟩
  | aside past use _ => use past.bus
  | cycle past now => (past.bus.cycle past.history.arbiter now).1

def history : Course → History
  | start _ _ count p pollInterval => .create count p pollInterval
  | send past _ _ _ => past.history
  | leave past _ _ => past.history
  | aside past _ _ => past.history
  | cycle past now => past.history.cycle (past.bus.feed now) past.bus.downlink

end

def latest : Course → Instant
  | start .. => .zero
  | send _ time _ _ => time
  | leave _ time _ => time
  | aside past _ _ => past.latest
  | cycle _ now => now

/-- The clock never goes back. -/
def Ordered : Course → Prop
  | start .. => True
  | send past time _ _ => past.latest ≤ time ∧ past.Ordered
  | leave past time _ => past.latest ≤ time ∧ past.Ordered
  | aside past _ _ => past.Ordered
  | cycle past now => past.latest ≤ now ∧ past.Ordered

instance decidableOrdered : (c : Course) → Decidable c.Ordered
  | start .. => isTrue trivial
  | send past time _ _ =>
    have := decidableOrdered past
    inferInstanceAs (Decidable (past.latest ≤ time ∧ past.Ordered))
  | leave past time _ =>
    have := decidableOrdered past
    inferInstanceAs (Decidable (past.latest ≤ time ∧ past.Ordered))
  | aside past _ _ => decidableOrdered past
  | cycle past now =>
    have := decidableOrdered past
    inferInstanceAs (Decidable (past.latest ≤ now ∧ past.Ordered))

def status (c : Course) : CycleStatus := c.history.arbiter.status

/-- A value on a line: when it was sent, and what had happened before. -/
structure Sending (l : Line) where
  past : Course
  time : Instant
  value : l.Value

def lastSent? (l : Line) : Course → Option (Sending l)
  | start .. => none
  | send past time k x => if h : k = l then some ⟨past, time, h ▸ x⟩ else past.lastSent? l
  | leave past _ _ => past.lastSent? l
  | aside past _ _ => past.lastSent? l
  | cycle past _ => past.lastSent? l

/-- The send that the reading of a slot comes from. -/
def origin? (slot : Nat) : Course → Option (Sending (.input slot))
  | start .. => none
  | send past _ _ _ => past.origin? slot
  | leave past _ _ => past.origin? slot
  | aside past _ _ => past.origin? slot
  | cycle past _ =>
    if (past.bus.pollInput? slot).isSome then past.lastSent? (.input slot) else past.origin? slot

/-! ## Times -/

theorem status_cycle (c : Course) (now : Instant) :
    (c.cycle now).status = c.status.record now := Arbiter.status_cycle _ _ _

theorem lastCycle_le_latest {c : Course} (h : c.Ordered) {t : Instant}
    (ht : c.status.lastCycle = some t) : t ≤ c.latest := by
  induction c with
  | start => cases ht
  | send past time l x ih => exact Nat.le_trans (ih h.2 ht) h.1
  | leave past time l ih => exact Nat.le_trans (ih h.2 ht) h.1
  | aside past use keeps ih => exact ih h ht
  | cycle past now _ =>
    rw [status_cycle] at ht
    cases ht
    exact Nat.le_refl _

theorem lastSent?_ordered {c : Course} {l : Line} {s : Sending l} (h : c.Ordered)
    (hs : c.lastSent? l = some s) :
    s.past.Ordered ∧ s.past.latest ≤ s.time ∧ s.time ≤ c.latest := by
  induction c with
  | start => cases hs
  | send past time k x ih =>
    by_cases hk : k = l
    · rw [lastSent?, dif_pos hk] at hs
      cases hs
      exact ⟨h.2, h.1, Nat.le_refl _⟩
    · rw [lastSent?, dif_neg hk] at hs
      obtain ⟨hpast, hbefore, hafter⟩ := ih h.2 hs
      exact ⟨hpast, hbefore, Nat.le_trans hafter h.1⟩
  | leave past time k ih =>
    obtain ⟨hpast, hbefore, hafter⟩ := ih h.2 hs
    exact ⟨hpast, hbefore, Nat.le_trans hafter h.1⟩
  | aside past use keeps ih => exact ih h hs
  | cycle past now ih =>
    obtain ⟨hpast, hbefore, hafter⟩ := ih h.2 hs
    exact ⟨hpast, hbefore, Nat.le_trans hafter h.1⟩

theorem lastCycle_eq_none_iff {c : Course} :
    c.status.lastCycle = none ↔ c.history.cycles = [] := by
  induction c with
  | start => exact iff_of_true rfl rfl
  | send past time l x ih => exact ih
  | leave past time l ih => exact ih
  | aside past use keeps ih => exact ih
  | cycle past now _ =>
    rw [status_cycle]
    exact iff_of_false nofun (List.append_ne_nil_of_right_ne_nil _ (List.cons_ne_nil _ _))

/-! ## One line -/

theorem channel?_send_self (c : Course) (time : Instant) (l : Line) (x : l.Value) :
    (c.send time l x).bus.channel? l = (c.bus.channel? l).map (·.step (.send x)) :=
  Bus.channel?_update_self _ _ _

theorem channel?_send_of_ne (c : Course) (time : Instant) {k l : Line} (x : k.Value) (h : k ≠ l) :
    (c.send time k x).bus.channel? l = c.bus.channel? l := Bus.channel?_update_of_ne _ _ h

theorem channel?_leave_self (c : Course) (time : Instant) (l : Line) :
    (c.leave time l).bus.channel? l = (c.bus.channel? l).map (·.step .leave) :=
  Bus.channel?_update_self _ _ _

theorem channel?_leave_of_ne (c : Course) (time : Instant) {k l : Line} (h : k ≠ l) :
    (c.leave time k).bus.channel? l = c.bus.channel? l := Bus.channel?_update_of_ne _ _ h

theorem channel?_aside (c : Course) (use : Bus → Bus)
    (keeps : ∀ b l, (use b).channel? l = b.channel? l) (l : Line) :
    (c.aside use keeps).bus.channel? l = c.bus.channel? l := keeps _ _

theorem channel?_cycle (c : Course) (now : Instant) (l : Line) :
    (c.cycle now).bus.channel? l =
      (c.bus.channel? l).map (·.after (Bus.movesOn l (Bus.polls c.history.count))) := by
  rw [bus, Bus.channel?_cycle, Bus.channel?_after, c.history.slotCount_arbiter]

theorem channel?_cycle_input (c : Course) (now : Instant) {slot : Nat}
    (h : slot < c.history.count) :
    (c.cycle now).bus.channel? (.input slot) =
      (c.bus.channel? (.input slot)).map Latest.polled := by
  rw [channel?_cycle, Bus.movesOn_polls_input, if_pos h]
  rfl

theorem sound_channel {c : Course} {l : Line} {ch : Latest l.Value}
    (h : c.bus.channel? l = some ch) : ch.hasReader = true ∧ ch.passed ≤ ch.sent := by
  induction c generalizing ch with
  | start slots known count p pollInterval =>
    obtain ⟨-, rfl⟩ := Bus.eq_holding_of_ofCount h
    exact ⟨rfl, Nat.le_refl _⟩
  | send past time k x ih =>
    by_cases hk : k = l
    · subst hk
      rw [channel?_send_self, Option.map_eq_some_iff] at h
      obtain ⟨before, hbefore, rfl⟩ := h
      exact Latest.sound_step (ih hbefore) _
    · rw [channel?_send_of_ne _ _ _ hk] at h
      exact ih h
  | leave past time k ih =>
    by_cases hk : k = l
    · subst hk
      rw [channel?_leave_self, Option.map_eq_some_iff] at h
      obtain ⟨before, hbefore, rfl⟩ := h
      exact Latest.sound_step (ih hbefore) _
    · rw [channel?_leave_of_ne _ _ hk] at h
      exact ih h
  | aside past use keeps ih => exact ih ((keeps past.bus l).symm.trans h)
  | cycle past now ih =>
    rw [channel?_cycle, Option.map_eq_some_iff] at h
    obtain ⟨before, hbefore, rfl⟩ := h
    exact Latest.sound_after (ih hbefore) _

theorem pollInput?_eq_some_iff (c : Course) (slot : Nat) (x : Sample) :
    c.bus.pollInput? slot = some x ↔
      ∃ ch, c.bus.channel? (.input slot) = some ch ∧ ch.offers = true ∧ ch.value = some x := by
  change (c.bus.inputs[slot]?.bind fun ch => ch.poll?.join) = some x ↔ _
  rw [Option.bind_eq_some_iff]
  refine exists_congr fun ch => and_congr_right fun _ => ?_
  cases h : ch.offers <;> simp [Latest.poll?, h]

/-! ## What a line holds -/

theorem sent_of_offers {c : Course} {slot : Nat} {ch : Latest (Option Sample)}
    (hslot : slot < c.history.count) (hch : c.bus.channel? (.input slot) = some ch)
    (hoffers : ch.offers = true) :
    ∃ s, c.lastSent? (.input slot) = some s ∧ s.value = ch.value ∧
      s.past.status.lastCycle = c.status.lastCycle := by
  induction c generalizing ch with
  | start slots known count p pollInterval =>
    obtain ⟨-, rfl⟩ := Bus.eq_holding_of_ofCount hch
    cases hoffers
  | send past time k x ih =>
    by_cases hk : k = .input slot
    · subst hk
      rw [channel?_send_self, Option.map_eq_some_iff] at hch
      obtain ⟨before, hbefore, rfl⟩ := hch
      have hsender : before.hasSender = true :=
        ((Latest.hasSender_step _ _).mp ((Latest.offers_iff _).mp hoffers).1).1
      rw [Latest.step_send (sound_channel hbefore).1 hsender]
      exact ⟨_, dif_pos rfl, rfl, rfl⟩
    · rw [channel?_send_of_ne _ _ _ hk] at hch
      rw [lastSent?, dif_neg hk]
      exact ih hslot hch hoffers
  | leave past time k ih =>
    by_cases hk : k = .input slot
    · subst hk
      rw [channel?_leave_self, Option.map_eq_some_iff] at hch
      obtain ⟨before, -, rfl⟩ := hch
      cases hoffers
    · rw [channel?_leave_of_ne _ _ hk] at hch
      exact ih hslot hch hoffers
  | aside past use keeps ih =>
    exact ih hslot ((keeps past.bus (.input slot)).symm.trans hch) hoffers
  | cycle past now _ =>
    rw [channel?_cycle_input past now hslot, Option.map_eq_some_iff] at hch
    obtain ⟨before, -, rfl⟩ := hch
    cases before.offers_polled.symm.trans hoffers

theorem reading_of_taken {c : Course} {slot : Nat} {ch : Latest (Option Sample)}
    {s : Sending (.input slot)} {x : Sample} (hordered : c.Ordered)
    (hslot : slot < c.history.count) (hch : c.bus.channel? (.input slot) = some ch)
    (hsender : ch.hasSender = true) (hold : ch.offers = false)
    (hs : c.lastSent? (.input slot) = some s) (hx : s.value = some x) :
    ∃ t, c.history.last? slot = some ⟨x, t⟩ ∧ s.time ≤ t := by
  induction c generalizing ch with
  | start => cases hs
  | send past time k y ih =>
    by_cases hk : k = .input slot
    · subst hk
      rw [channel?_send_self, Option.map_eq_some_iff] at hch
      obtain ⟨before, hbefore, rfl⟩ := hch
      -- What was just sent is still to be taken.
      have hbefore := sound_channel hbefore
      have hthere := ((Latest.hasSender_step _ _).mp hsender).1
      rw [Latest.step_send hbefore.1 hthere] at hold
      simp only [Latest.offers, Latest.isFresh, hthere, Bool.true_and,
        decide_eq_false_iff_not] at hold
      omega
    · rw [channel?_send_of_ne _ _ _ hk] at hch
      rw [lastSent?, dif_neg hk] at hs
      exact ih hordered.2 hslot hch hsender hold hs
  | leave past time k ih =>
    by_cases hk : k = .input slot
    · subst hk
      rw [channel?_leave_self, Option.map_eq_some_iff] at hch
      obtain ⟨before, -, rfl⟩ := hch
      cases hsender
    · rw [channel?_leave_of_ne _ _ hk] at hch
      exact ih hordered.2 hslot hch hsender hold hs
  | aside past use keeps ih =>
    exact ih hordered hslot ((keeps past.bus (.input slot)).symm.trans hch) hsender hold hs
  | cycle past now ih =>
    rw [channel?_cycle_input past now hslot, Option.map_eq_some_iff] at hch
    obtain ⟨before, hbefore, rfl⟩ := hch
    have hthere : before.hasSender = true := ((Latest.hasSender_step before .poll).mp hsender).1
    cases hfresh : before.offers with
    | true =>
      obtain ⟨s', hs', hvalue, -⟩ := sent_of_offers (c := past) hslot hbefore hfresh
      cases hs.symm.trans hs'
      have hpoll := (pollInput?_eq_some_iff past slot x).mpr
        ⟨before, hbefore, hfresh, hvalue.symm.trans hx⟩
      refine ⟨now, ?_, Nat.le_trans (lastSent?_ordered hordered.2 hs').2.2 hordered.1⟩
      simp [history, History.last?, Feed.reading?, Bus.feed, hpoll]
    | false =>
      obtain ⟨t, ht, hle⟩ := ih hordered.2 hslot hbefore hthere hfresh hs
      have hpoll : past.bus.pollInput? slot = none := by
        rw [Option.eq_none_iff_forall_ne_some]
        intro y hy
        obtain ⟨ch, hch, hoffers, -⟩ := (pollInput?_eq_some_iff past slot y).mp hy
        cases hbefore.symm.trans hch
        cases hfresh.symm.trans hoffers
      refine ⟨t, ?_, hle⟩
      simpa [history, History.last?, Feed.reading?, Bus.feed, hpoll] using ht

/-- A reading comes from a send, and was taken by the first cycle after it. -/
theorem origin_of_reading {c : Course} {slot : Nat} {r : Reading} (hordered : c.Ordered)
    (hslot : slot < c.history.count) (hr : c.history.last? slot = some r) :
    ∃ s, c.origin? slot = some s ∧ s.value = some r.sample ∧
      (s.past.history.cycles ≠ [] → r.received.since s.time ≤ c.status.maxInterval) := by
  induction c generalizing r with
  | start => cases hr
  | send past time k x ih => exact ih hordered.2 hslot hr
  | leave past time k ih => exact ih hordered.2 hslot hr
  | aside past use keeps ih => exact ih hordered hslot hr
  | cycle past now ih =>
    rw [status_cycle]
    cases hpoll : past.bus.pollInput? slot with
    | none =>
      obtain ⟨s, hs, hvalue, hbound⟩ := ih hordered.2 hslot
        (by simpa [history, History.last?, Feed.reading?, Bus.feed, hpoll] using hr)
      refine ⟨s, by simpa [origin?, hpoll] using hs, hvalue, fun hcycles => ?_⟩
      exact Span.le_trans (hbound hcycles) (CycleStatus.maxInterval_le_record _ _)
    | some x =>
      obtain rfl : ⟨x, now⟩ = r := by
        simpa [history, History.last?, Feed.reading?, Bus.feed, hpoll] using hr
      obtain ⟨ch, hch, hoffers, hx⟩ := (pollInput?_eq_some_iff past slot x).mp hpoll
      obtain ⟨s, hs, hvalue, hlast⟩ := sent_of_offers (c := past) hslot hch hoffers
      -- No cycle ran since the send, so the wait fits between the last cycle and this one.
      refine ⟨s, by simpa [origin?, hpoll] using hs, hvalue.trans hx, fun hcycles => ?_⟩
      obtain ⟨hpast, hbefore, -⟩ := lastSent?_ordered hordered.2 hs
      rw [Ne, ← lastCycle_eq_none_iff] at hcycles
      obtain ⟨t, ht⟩ := Option.ne_none_iff_exists'.mp hcycles
      have hle : t ≤ s.time := Nat.le_trans (lastCycle_le_latest hpast ht) hbefore
      exact Span.le_trans (Instant.since_le_since now hle)
        (CycleStatus.since_le_record now (hlast.symm.trans ht))

theorem isSome_lastSent? {c : Course} {slot : Nat} {s : Sending (.input slot)}
    (h : c.origin? slot = some s) : (c.lastSent? (.input slot)).isSome = true := by
  induction c generalizing s with
  | start => cases h
  | send past time k x ih =>
    by_cases hk : k = .input slot
    · simp [lastSent?, hk]
    · rw [lastSent?, dif_neg hk]
      exact ih h
  | leave past time k ih => exact ih h
  | aside past use keeps ih => exact ih h
  | cycle past now ih =>
    rw [origin?] at h
    split at h
    · exact Option.isSome_of_mem h
    · exact ih h

theorem reading_of_lastSent {c : Course} {now : Instant} {slot : Nat}
    {ch : Latest (Option Sample)} {s : Sending (.input slot)} {x : Sample}
    (hordered : (c.cycle now).Ordered) (hslot : slot < c.history.count)
    (hch : c.bus.channel? (.input slot) = some ch) (hsender : ch.hasSender = true)
    (hs : c.lastSent? (.input slot) = some s) (hx : s.value = some x) :
    ∃ t, (c.cycle now).history.last? slot = some ⟨x, t⟩ ∧ s.time ≤ t := by
  have hpolled : (c.cycle now).bus.channel? (.input slot) = some ch.polled := by
    rw [channel?_cycle_input c now hslot, hch]
    rfl
  have hthere := (Latest.hasSender_step ch .poll).mpr ⟨hsender, by simp⟩
  exact reading_of_taken hordered hslot hpolled hthere ch.offers_polled hs hx

end Course

end StickArbiter
