import Mathlib.Data.Finset.Max
import StickArbiter.Proofs.Selection

/-!
# Selecting by what was delivered

A selector shows what follows from all that was delivered to its slots and from the slot selected
last.
-/

namespace StickArbiter

namespace Selector

/-! ## What is done to a selector -/

/-- What others write into the setpoint. -/
inductive Mark
  | timestamp (t : Instant)
  | valid (b : Bool)
  | armGesture (b : Bool)
  | disarmGesture (b : Bool)
  | userOverride (b : Bool)

def Mark.on (sp : Setpoint) : Mark → Setpoint
  | timestamp t => { sp with timestamp := t }
  | valid b => { sp with valid := b }
  | armGesture b => { sp with armGesture := b }
  | disarmGesture b => { sp with disarmGesture := b }
  | userOverride b => { sp with userOverride := b }

inductive Move
  | deliver (now : Instant) (slot : Nat) (x : Sample)
  | tick (now : Instant)
  | setMode (mode : Mode)
  | setTimeout (timeout : Span)
  | mark (m : Mark)

def step (s : Selector) : Move → Selector
  | .deliver now slot x => s.deliver now slot x
  | .tick now => s.select now
  | .setMode mode => { s with mode := mode }
  | .setTimeout timeout => { s with timeout := timeout }
  | .mark m => { s with setpoint := m.on s.setpoint }

def after (s : Selector) (moves : List Move) : Selector := moves.foldl step s

/-- When a move makes one of `count` slots be selected anew. -/
def Move.selectsAt? (count : Nat) : Move → Option Instant
  | deliver now slot _ => if slot < count then some now else none
  | tick now => some now
  | setMode _ => none
  | setTimeout _ => none
  | mark _ => none

end Selector

/-! ## The ledger -/

/-- All that was delivered, what is set, and the slot selected last. -/
structure Ledger where
  count : Nat
  delivered : List (Nat × Reading) := []
  mode : Mode := .fallback
  timeout : Span := .ofMillis 500
  selected : Option Nat := none

namespace Ledger

def latest? (l : Ledger) (slot : Nat) : Option Reading := l.delivered.reverse.lookup slot

/-- The slots whose last sample is usable, accepted and younger than the timeout. -/
def live (l : Ledger) (now : Instant) : Finset Nat :=
  (Finset.range l.count).filter fun slot => (l.latest? slot).any fun r =>
    r.sample.valid && l.mode.accepts r.sample.source && now.since r.received < l.timeout

def lowest? (slots : Finset Nat) : Option Nat :=
  if h : slots.Nonempty then some (slots.min' h) else none

def choice? (l : Ledger) (now : Instant) : Option Nat :=
  (l.selected.filter fun slot => l.mode.isSticky && slot ∈ l.live now).or (lowest? (l.live now))

def select (l : Ledger) (now : Instant) : Ledger := { l with selected := l.choice? now }

def record (l : Ledger) (now : Instant) (slot : Nat) (x : Sample) : Ledger :=
  { l with delivered := l.delivered ++ [(slot, ⟨x, now⟩)] }

def step (l : Ledger) : Selector.Move → Ledger
  | .deliver now slot x => if slot < l.count then (l.record now slot x).select now else l
  | .tick now => l.select now
  | .setMode mode => { l with mode := mode }
  | .setTimeout timeout => { l with timeout := timeout }
  | .mark _ => l

def after (l : Ledger) (moves : List Selector.Move) : Ledger := moves.foldl step l

theorem lowest?_eq_some_iff (slots : Finset Nat) (slot : Nat) :
    lowest? slots = some slot ↔ IsLeast (slots : Set Nat) slot := by
  unfold lowest?
  split
  next h =>
    rw [Option.some_inj]
    constructor
    · rintro rfl
      exact slots.isLeast_min' h
    · intro hleast
      exact (slots.isLeast_min' h).unique hleast
  next h =>
    refine iff_of_false nofun fun hleast => h ⟨slot, hleast.1⟩

theorem latest?_record (l : Ledger) (now : Instant) (slot : Nat) (x : Sample) (k : Nat) :
    (l.record now slot x).latest? k = if k = slot then some ⟨x, now⟩ else l.latest? k := by
  unfold latest? record
  rw [List.reverse_append, List.reverse_singleton, List.singleton_append, List.lookup_cons]
  by_cases hk : k = slot
  · simp [hk]
  · simp [hk, beq_eq_false_iff_ne.mpr hk]

theorem after_concat (l : Ledger) (moves : List Selector.Move) (m : Selector.Move) :
    l.after (moves ++ [m]) = (l.after moves).step m := List.foldl_concat ..

theorem count_step (l : Ledger) (m : Selector.Move) : (l.step m).count = l.count := by
  cases m with
  | deliver now slot x =>
    unfold step
    dsimp only
    split <;> rfl
  | tick now => rfl
  | setMode mode => rfl
  | setTimeout timeout => rfl
  | mark k => rfl

theorem count_after (l : Ledger) (moves : List Selector.Move) :
    (l.after moves).count = l.count := by
  induction moves using List.reverseRecOn with
  | nil => rfl
  | append_singleton moves m ih => rw [after_concat, count_step, ih]

theorem choice?_of_kept {l : Ledger} {now : Instant} {slot : Nat} (h : l.selected = some slot)
    (hsticky : l.mode.isSticky = true) (hlive : slot ∈ l.live now) :
    l.choice? now = some slot := by
  simp [choice?, h, hsticky, hlive]

theorem choice?_of_not_kept {l : Ledger} {now : Instant}
    (h : ∀ slot, l.selected = some slot → l.mode.isSticky = true → slot ∉ l.live now) :
    l.choice? now = lowest? (l.live now) := by
  have hnone : (l.selected.filter fun slot => l.mode.isSticky && slot ∈ l.live now) = none := by
    simpa using h
  rw [choice?, hnone, Option.none_or]

end Ledger

/-! ## A selector goes by its ledger -/

namespace Selector

structure Follows (s : Selector) (l : Ledger) : Prop where
  count : s.slotCount = l.count
  mode : s.mode = l.mode
  timeout : s.timeout = l.timeout
  selected : s.selected = l.selected
  latest : ∀ slot, s.reading? slot = l.latest? slot

variable {s : Selector} {l : Ledger}

theorem follows_ofCount (count : Nat) : (ofCount count).Follows { count := count } := by
  refine ⟨List.length_replicate, rfl, rfl, rfl, ?_⟩
  intro slot
  unfold reading? ofCount
  rw [List.getElem?_replicate]
  split <;> rfl

theorem Follows.isLive_iff (h : s.Follows l) (now : Instant) (slot : Nat) :
    s.isLive now slot = true ↔ slot ∈ l.live now := by
  have hlive : s.isLive now slot = (l.latest? slot).any (admits l.mode l.timeout now) := by
    rw [isLive, h.mode, h.timeout, h.latest]
    cases l.latest? slot <;> rfl
  rw [Ledger.live, Finset.mem_filter, Finset.mem_range, ← h.count]
  constructor
  · intro hon
    exact ⟨lt_slotCount_of_isLive hon, hlive ▸ hon⟩
  · rintro ⟨-, hany⟩
    exact hlive ▸ hany

theorem Follows.lowest (h : s.Follows l) (now : Instant) :
    s.lowestLive? now = Ledger.lowest? (l.live now) := by
  have hset : {k | s.isLive now k = true} = (l.live now : Set Nat) := by
    ext k
    exact h.isLive_iff now k
  ext slot
  rw [lowestLive?_eq_some_iff, Ledger.lowest?_eq_some_iff, hset]

theorem Follows.choice (h : s.Follows l) (now : Instant) : s.choice? now = l.choice? now := by
  rcases choice?_cases s now with ⟨slot, hs, hsticky, hlive, hkept⟩ | ⟨hdead, hlow⟩
  · rw [hkept, Ledger.choice?_of_kept (h.selected ▸ hs) (h.mode ▸ hsticky)
      ((h.isLive_iff now slot).mp hlive)]
  · rw [hlow, h.lowest, Ledger.choice?_of_not_kept]
    intro slot hs hsticky hlive
    have hoff := hdead slot (h.selected.trans hs) (h.mode ▸ hsticky)
    rw [(h.isLive_iff now slot).mpr hlive] at hoff
    cases hoff

theorem Follows.select (h : s.Follows l) (now : Instant) : (s.select now).Follows (l.select now) :=
  ⟨h.count, h.mode, h.timeout, (selected_select s now).trans (h.choice now), h.latest⟩

theorem Follows.record (h : s.Follows l) (now : Instant) (slot : Nat) (x : Sample)
    (hslot : slot < l.count) : (s.record now slot x).Follows (l.record now slot x) := by
  refine ⟨(slotCount_record s now slot x).trans h.count, h.mode, h.timeout, h.selected, ?_⟩
  intro k
  rw [reading?_record s now slot x k (h.count ▸ hslot), Ledger.latest?_record, h.latest]

theorem selected_mark (s : Selector) (m : Mark) : (s.step (.mark m)).selected = s.selected := by
  cases m <;> rfl

theorem Follows.step (h : s.Follows l) (m : Move) : (s.step m).Follows (l.step m) := by
  cases m with
  | deliver now slot x =>
    unfold Selector.step Ledger.step deliver
    simp only [h.count]
    split
    next hslot => exact (h.record now slot x hslot).select now
    next => exact h
  | tick now => exact h.select now
  | setMode mode => exact ⟨h.count, rfl, h.timeout, h.selected, h.latest⟩
  | setTimeout timeout => exact ⟨h.count, h.mode, rfl, h.selected, h.latest⟩
  | mark m => exact ⟨h.count, h.mode, h.timeout, (s.selected_mark m).trans h.selected, h.latest⟩

theorem after_concat (s : Selector) (moves : List Move) (m : Move) :
    s.after (moves ++ [m]) = (s.after moves).step m := List.foldl_concat ..

theorem follows_after (count : Nat) (moves : List Move) :
    ((ofCount count).after moves).Follows (Ledger.after { count := count } moves) := by
  induction moves using List.reverseRecOn with
  | nil => exact follows_ofCount count
  | append_singleton moves m ih =>
    rw [after_concat, Ledger.after_concat]
    exact ih.step m

/-! ## What a selector shows -/

theorem Follows.step_of_selects (h : s.Follows l) {m : Move} {now : Instant}
    (hm : m.selectsAt? l.count = some now) :
    ∃ (s₀ : Selector) (l₀ : Ledger),
      s₀.Follows l₀ ∧ s.step m = s₀.select now ∧ l.step m = l₀.select now ∧
      s₀.setpoint = s.setpoint ∧ l₀.selected = l.selected := by
  cases m with
  | deliver t slot x =>
    simp only [Move.selectsAt?, Option.ite_none_right_eq_some, Option.some_inj] at hm
    obtain ⟨hslot, rfl⟩ := hm
    refine ⟨_, _, h.record t slot x hslot, ?_, ?_, rfl, rfl⟩
    · exact if_pos (h.count ▸ hslot)
    · exact if_pos hslot
  | tick t =>
    cases hm
    exact ⟨s, l, h, rfl, rfl, rfl, rfl⟩
  | setMode mode => cases hm
  | setTimeout timeout => cases hm
  | mark m => cases hm

theorem Follows.setpoint_select (h : s.Follows l) (now : Instant) :
    (l.live now = ∅ → (s.select now).setpoint = { s.setpoint with valid := false, slot := none }) ∧
    ∀ slot, l.choice? now = some slot →
      ∃ r, l.latest? slot = some r ∧ (s.select now).setpoint =
        { s.setpoint with
          axes := r.sample.axes, timestamp := r.sample.timestamp, source := r.sample.source
          valid := true, slot := some slot } := by
  rw [← h.choice now]
  rcases select_cases s now with ⟨slot, r, hc, hr, hsp⟩ | ⟨hc, hsp⟩
  · constructor
    · intro hnone
      have hlive := (h.isLive_iff now slot).mp (isLive_of_choice? hc)
      simp [hnone] at hlive
    · intro k hk
      obtain rfl : slot = k := Option.some.inj (hc.symm.trans hk)
      exact ⟨r, h.latest slot ▸ hr, hsp⟩
  · refine ⟨fun _ => hsp, ?_⟩
    intro k hk
    cases hc.symm.trans hk

theorem setpoint_step_of_idle (s : Selector) {m : Move} (hm : m.selectsAt? s.slotCount = none)
    (hmark : ∀ k, m ≠ .mark k) : (s.step m).setpoint = s.setpoint := by
  cases m with
  | deliver now slot x =>
    have hslot : ¬ slot < s.slotCount := by simpa [Move.selectsAt?] using hm
    simp [step, deliver, hslot]
  | tick now => cases hm
  | setMode mode => rfl
  | setTimeout timeout => rfl
  | mark k => exact absurd rfl (hmark k)

/-- After any run the slot shown is the one that the ledger selects, with the values of its last
sample. Without a live slot the setpoint only loses its slot. -/
theorem step_follows_ledger (count : Nat) (moves : List Move) (m : Move) :
    let s := (ofCount count).after moves
    let l := Ledger.after { count := count } moves
    let s' := s.step m
    let l' := l.step m
    s.selected = l.selected ∧ s'.selected = l'.selected ∧
    (∀ now, m.selectsAt? count = some now →
      (l'.live now = ∅ → s'.setpoint = { s.setpoint with valid := false, slot := none }) ∧
      (∀ slot, l.selected = some slot → l'.mode.isSticky = true → slot ∈ l'.live now →
        l'.selected = some slot) ∧
      ((∀ slot, l.selected = some slot → l'.mode.isSticky = true → slot ∉ l'.live now) →
        ∀ slot, IsLeast (l'.live now : Set Nat) slot → l'.selected = some slot) ∧
      ∀ slot, l'.selected = some slot →
        ∃ r, l'.latest? slot = some r ∧ s'.setpoint =
          { s.setpoint with
            axes := r.sample.axes, timestamp := r.sample.timestamp, source := r.sample.source
            valid := true, slot := some slot }) ∧
    (m.selectsAt? count = none → (∀ k, m ≠ .mark k) → s'.setpoint = s.setpoint) := by
  intro s l s' l'
  have hpast : s.Follows l := follows_after count moves
  have hnext : s'.Follows l' := hpast.step m
  have hcount : l.count = count := Ledger.count_after _ moves
  refine ⟨hpast.selected, hnext.selected, ?_, ?_⟩
  · intro now hm
    obtain ⟨s₀, l₀, h₀, hs', hl', hsetpoint, hselected⟩ := hpast.step_of_selects (hcount ▸ hm)
    obtain ⟨hnone, hsome⟩ := h₀.setpoint_select now
    rw [← hs', hsetpoint] at hnone hsome
    rw [show l' = l₀.select now from hl', ← hselected]
    refine ⟨hnone, ?_, ?_, hsome⟩
    · intro slot hslot hsticky hlive
      exact Ledger.choice?_of_kept hslot hsticky hlive
    · intro hdrop slot hleast
      exact (Ledger.choice?_of_not_kept hdrop).trans ((Ledger.lowest?_eq_some_iff _ _).mpr hleast)
  · intro hm hmark
    exact s.setpoint_step_of_idle (hpast.count.trans hcount ▸ hm) hmark

end Selector

end StickArbiter
