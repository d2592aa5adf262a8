import StickArbiter.Proofs.Traffic

/-!
# Waking up for a value

A wait finds a value through a copy even if its sender is gone, but a reader takes none then: last
words end every further wait.
-/

namespace StickArbiter

/-! ## One channel -/

namespace Latest

inductive Finding
  | changed
  | closed
  | nothing
deriving DecidableEq

variable {α : Type}

/-- What a copy of the reader finds that was made when the channel stood at `copy`. -/
def finds (copy now : Latest α) : Finding :=
  if copy.passed < now.sent then .changed
  else if now.hasSender then .nothing
  else .closed

theorem finds_eq_changed_iff (copy now : Latest α) :
    copy.finds now = .changed ↔ copy.passed < now.sent := by
  unfold finds
  split
  · simp [*]
  · split <;> simp [*]

theorem isSome_poll?_iff (c : Latest α) :
    c.poll?.isSome = true ↔ c.hasSender = true ∧ c.passed < c.sent := by
  cases h : c.offers <;> simp_all [poll?, offers, isFresh]

theorem fresh_of_found {c : Latest α} {log waiting news : List (Move α)}
    (hwaiting : .poll ∉ waiting) (hnews : .poll ∉ news)
    (h : (c.after log).finds (c.after (log ++ waiting)) = .changed) :
    (c.after (log ++ waiting ++ news)).passed < (c.after (log ++ waiting ++ news)).sent := by
  rw [finds_eq_changed_iff] at h
  have hpassed : (c.after (log ++ waiting ++ news)).passed = (c.after log).passed := by
    rw [List.append_assoc, after_append]
    exact passed_after _ _ (by simp [hwaiting, hnews])
  rw [hpassed, after_append]
  exact h.trans_le (sent_le_after _ _)

theorem found_again_iff {c : Latest α} (h : c.passed < c.sent) (later again : List (Move α)) :
    (c.after (.poll :: later)).finds (c.after (.poll :: later ++ again)) = .changed ∧
      (c.after (.poll :: later ++ again)).sent = c.sent ↔ ¬c.hasSender = true := by
  rw [finds_eq_changed_iff]
  constructor
  · rintro ⟨hfound, hsame⟩ hsender
    have hpoll : c.step .poll = c.pass := by simp [step, polled, offers, isFresh, hsender, h]
    have hpassed : c.sent ≤ (c.after (.poll :: later)).passed := by
      rw [after_cons, hpoll]
      exact (passed_le_after (c := c.pass) (le_refl _) later).1
    omega
  · intro hsender
    rw [Bool.not_eq_true] at hsender
    rw [after_of_left hsender, after_of_left hsender]
    exact ⟨h, rfl⟩

end Latest

/-! ## The bus -/

def Wakeup.watches (w : Wakeup) : Line → Bool
  | .input slot => w.onInput = some slot
  | .switches => w.onSwitches
  | .parameters => false

namespace Bus

/-- A wait that began at `start` is ended by a line at `now`. -/
def ends (start now : Bus) (w : Wakeup) (l : Line) : Bool :=
  w.watches l &&
    (start.channel? l).any fun copy => (now.channel? l).any fun c => copy.finds c = .changed

def take? (b : Bus) (l : Line) : Option l.Value := (b.channel? l).bind (·.poll?)

def sentOn (b : Bus) (l : Line) : Nat := (b.channel? l).elim 0 (·.sent)

theorem pollInput?_eq (b : Bus) (slot : Nat) :
    b.pollInput? slot = (b.take? (.input slot)).join := by
  simp only [pollInput?, take?, channel?]
  cases b.inputs[slot]? <;> rfl

theorem ends_after_iff {b : Bus} {l : Line} {c : Latest l.Value} (h : b.channel? l = some c)
    (start stop : List Move) (w : Wakeup) :
    (b.after start).ends (b.after stop) w l = true ↔
      w.watches l = true ∧
        (c.after (movesOn l start)).finds (c.after (movesOn l stop)) = .changed := by
  simp [ends, channel?_after, h]

theorem ends_of_unpolled (b : Bus) (w : Wakeup) {l : Line} {ms : List Move}
    (h : ⟨l, .poll⟩ ∉ ms) :
    b.ends (b.after ms) w l = true ↔
      w.watches l = true ∧ ((b.after ms).channel? l).any Latest.isFresh = true := by
  cases hc : b.channel? l with
  | none => simp [ends, channel?_after, hc]
  | some c =>
    have hpassed := Latest.passed_after c (movesOn l ms) (mt mem_movesOn.mp h)
    simp [ends, channel?_after, hc, Latest.finds_eq_changed_iff, Latest.isFresh, hpassed]

theorem wakes_iff (b : Bus) (w : Wakeup) :
    b.wakes w = true ↔
      ∃ l, w.watches l = true ∧ (b.channel? l).any Latest.isFresh = true := by
  rw [wakes, Bool.or_eq_true, Bool.and_eq_true]
  constructor
  · rintro (h | ⟨hw, h⟩)
    · cases hslot : w.onInput with
      | none => simp [hslot] at h
      | some slot =>
        rw [hslot] at h
        exact ⟨.input slot, by simp [Wakeup.watches, hslot], h⟩
    · exact ⟨.switches, hw, h⟩
  · rintro ⟨l, hw, h⟩
    cases l with
    | input slot =>
      have hslot : w.onInput = some slot := of_decide_eq_true hw
      exact .inl (by rw [hslot]; exact h)
    | switches => exact .inr ⟨hw, h⟩
    | parameters => cases hw

theorem wakes_iff_exists_ends (b : Bus) (w : Wakeup) (ms : List Move) (h : ∀ l, ⟨l, .poll⟩ ∉ ms) :
    (b.after ms).wakes w = true ↔ ∃ l, b.ends (b.after ms) w l = true := by
  rw [wakes_iff]
  exact exists_congr fun l => (ends_of_unpolled b w (h l)).symm

theorem hasSender_ofCount {count : Nat} {p : Parameters} {l : Line} {c : Latest l.Value}
    (h : (ofCount count p).channel? l = some c) : c.hasSender = true := by
  obtain ⟨-, rfl⟩ := eq_holding_of_ofCount h
  rfl

/-! ## The poll after a wait -/

section

variable {count : Nat} {p : Parameters} {b : Bus} {l : Line} {c : Latest l.Value}
  {log waiting news moves : List Move} {w : Wakeup}

theorem hasSender_iff (h : ((ofCount count p).after moves).channel? l = some c) :
    c.hasSender = true ↔ ⟨l, .leave⟩ ∉ moves := by
  rw [channel?_after, Option.map_eq_some_iff] at h
  obtain ⟨first, hfirst, rfl⟩ := h
  rw [Latest.hasSender_after, mem_movesOn]
  exact and_iff_right (hasSender_ofCount hfirst)

theorem fresh_of_ends (hwaiting : ⟨l, .poll⟩ ∉ waiting) (hnews : ⟨l, .poll⟩ ∉ news)
    (h : (b.after log).ends (b.after (log ++ waiting)) w l = true) :
    ∃ c, (b.after (log ++ waiting ++ news)).channel? l = some c ∧ c.passed < c.sent := by
  cases hc : b.channel? l with
  | none => simp [ends, channel?_after, hc] at h
  | some first =>
    obtain ⟨-, hfound⟩ := (ends_after_iff hc _ _ _).mp h
    rw [movesOn_append] at hfound
    refine ⟨_, by rw [channel?_after, hc]; rfl, ?_⟩
    rw [movesOn_append, movesOn_append]
    exact Latest.fresh_of_found (mt mem_movesOn.mp hwaiting) (mt mem_movesOn.mp hnews) hfound

/-- After a poll, a value that was there before ends a wait only if its sender has left. -/
theorem ends_again_iff (hc : b.channel? l = some c) (hfresh : c.passed < c.sent)
    (hw : w.watches l = true) (later again : List Move) :
    let start := b.after (⟨l, .poll⟩ :: later)
    let stop := start.after again
    start.ends stop w l = true ∧ stop.sentOn l = b.sentOn l ↔ ¬c.hasSender = true := by
  intro start stop
  have hstop : stop = b.after (⟨l, .poll⟩ :: later ++ again) := (after_append _ _ _).symm
  have hagain := Latest.found_again_iff hfresh (movesOn l later) (movesOn l again)
  rw [← movesOn_cons_self, ← movesOn_append] at hagain
  rw [← hagain, hstop, ends_after_iff hc, sentOn, sentOn, channel?_after, hc]
  simp only [hw, true_and, Option.map_some, Option.elim_some]

end

/-- When something has ended a wait, the next poll takes it exactly if the sender has not left by
then. If it has left, the same value ends every later wait on the line. -/
theorem taken_iff_not_left (count : Nat) (p : Parameters) (log waiting news : List Move)
    (w : Wakeup) (l : Line) (hwaiting : ⟨l, .poll⟩ ∉ waiting) (hnews : ⟨l, .poll⟩ ∉ news)
    (hends : ((ofCount count p).after log).ends
      ((ofCount count p).after (log ++ waiting)) w l = true) :
    let moves := log ++ waiting ++ news
    let b := (ofCount count p).after moves
    ((b.take? l).isSome = true ↔ ⟨l, .leave⟩ ∉ moves) ∧
    ∀ (later again : List Move) (w' : Wakeup), w'.watches l = true →
      let start := b.after (⟨l, .poll⟩ :: later)
      let stop := start.after again
      start.ends stop w' l = true ∧ stop.sentOn l = b.sentOn l ↔ ⟨l, .leave⟩ ∈ moves := by
  intro moves b
  obtain ⟨c, hc, hfresh⟩ := fresh_of_ends hwaiting hnews hends
  have hsender : c.hasSender = true ↔ ⟨l, .leave⟩ ∉ moves := hasSender_iff hc
  constructor
  · rw [take?, hc, Option.bind_some, Latest.isSome_poll?_iff, hsender]
    exact and_iff_left hfresh
  · intro later again w' hw' start stop
    have hagain := (ends_again_iff hc hfresh hw' later again).trans (not_congr hsender)
    rwa [not_not] at hagain

/-- A value is sent on a slot, and its sender leaves. -/
def lastWords (x : Sample) : List Move :=
  [⟨.input 0, .send (some x)⟩, ⟨.input 0, .leave⟩]

def slotWait (slot : Nat) : Wakeup := { onInput := some slot, timeout := .zero }

/-- The last words end a wait, are not taken, and end the wait after a cycle of polls. -/
theorem taken_iff_not_left_lastWords :
    let start := ofCount 1 default
    let b := start.after (lastWords default ++ [⟨.parameters, .poll⟩])
    let polled := start.after (lastWords default ++ polls 1)
    start.ends (start.after (lastWords default)) (slotWait 0) (.input 0) = true ∧
      ¬(b.take? (.input 0)).isSome = true ∧
      polled.ends polled (slotWait 0) (.input 0) = true ∧
      polled.sentOn (.input 0) = b.sentOn (.input 0) := by
  intro start b polled
  have hends : start.ends (start.after (lastWords default)) (slotWait 0) (.input 0) = true := by
    decide
  obtain ⟨htaken, hagain⟩ := taken_iff_not_left 1 default [] (lastWords default)
    [⟨.parameters, .poll⟩] (slotWait 0) (.input 0) (by simp [lastWords]) (by simp) hends
  have hleft : ⟨.input 0, .leave⟩ ∈ lastWords default ++ [⟨.parameters, .poll⟩] := by
    simp [lastWords]
  exact ⟨hends, fun h => htaken.mp h hleft,
    (hagain [⟨.switches, .poll⟩] [] (slotWait 0) rfl).mpr hleft⟩

theorem woken_not_always_taken :
    ¬ ∀ (count : Nat) (p : Parameters) (log waiting news : List Move) (w : Wakeup) (l : Line),
      ⟨l, .poll⟩ ∉ waiting → ⟨l, .poll⟩ ∉ news →
      ((ofCount count p).after log).ends ((ofCount count p).after (log ++ waiting)) w l = true →
      (((ofCount count p).after (log ++ waiting ++ news)).take? l).isSome = true := by
  intro h
  have htaken := h 1 default [] (lastWords default) [] (slotWait 0) (.input 0)
    (by simp [lastWords]) (by simp) (by decide)
  revert htaken
  decide

end Bus

end StickArbiter
