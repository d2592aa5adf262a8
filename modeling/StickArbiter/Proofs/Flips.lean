import Mathlib.Data.List.DropRight
import Mathlib.Data.List.Induction
import StickArbiter.Debounce

/-!
# When a debounced switch flips

A switch flips when its inputs have differed from its state without a break for the delay of leaving
that state.
-/

namespace StickArbiter

namespace Debounce

/-! ## Histories -/

inductive Move
  | feed (input : Bool) (t : Instant)
  | tick (t : Instant)
  | setDelay (delay : Span)
  | setDelayFrom (state : Bool) (delay : Span)

namespace Move

def input? : Move → Option (Bool × Instant)
  | feed input t => some (input, t)
  | tick _ => none
  | setDelay _ => none
  | setDelayFrom _ _ => none

def time? : Move → Option Instant
  | feed _ t => some t
  | tick t => some t
  | setDelay _ => none
  | setDelayFrom _ _ => none

def delay? (state : Bool) : Move → Option Span
  | feed _ _ => none
  | tick _ => none
  | setDelay delay => some delay
  | setDelayFrom s delay => if s = state then some delay else none

theorem input?_eq_none {m : Move} (h : m.time? = none) : m.input? = none := by
  cases m with
  | feed input t => cases h
  | tick t => rfl
  | setDelay delay => rfl
  | setDelayFrom state delay => rfl

end Move

def step (d : Debounce) : Move → Debounce
  | .feed input t => d.feed input t
  | .tick t => d.tick t
  | .setDelay delay => d.setDelay delay
  | .setDelayFrom state delay => d.setDelayFrom state delay

def after (d : Debounce) (moves : List Move) : Debounce := moves.foldl step d

/-- The moves of a history, each with the switch before it. -/
def steps : Debounce → List Move → List (Debounce × Move)
  | _, [] => []
  | d, m :: moves => (d, m) :: steps (d.step m) moves

/-- The moves since the last flip, or since the start. -/
def sinceFlip (d : Debounce) (moves : List Move) : List Move :=
  ((d.steps moves).rtakeWhile fun s => (s.1.step s.2).confirmed = s.1.confirmed).map (·.2)

/-- The inputs that differ from a state, from the last one equal to it on. -/
def run (state : Bool) (moves : List Move) : List (Bool × Instant) :=
  (moves.filterMap Move.input?).rtakeWhile fun x => x.1 ≠ state

def delaySet (state : Bool) (moves : List Move) : Span :=
  (moves.filterMap (Move.delay? state)).getLast?.getD .zero

variable {d : Debounce} {moves : List Move} {m : Move}

theorem after_concat : d.after (moves ++ [m]) = (d.after moves).step m := List.foldl_concat ..

theorem steps_concat : d.steps (moves ++ [m]) = d.steps moves ++ [(d.after moves, m)] := by
  induction moves generalizing d with
  | nil => rfl
  | cons n moves ih => exact congrArg (_ :: ·) ih

theorem sinceFlip_concat :
    d.sinceFlip (moves ++ [m]) =
      if ((d.after moves).step m).confirmed = (d.after moves).confirmed then
        d.sinceFlip moves ++ [m]
      else [] := by
  unfold sinceFlip
  rw [steps_concat, List.rtakeWhile_concat]
  split
  · simp_all
  · simp_all

theorem run_concat_of_none {state : Bool} (h : m.input? = none) :
    run state (moves ++ [m]) = run state moves := by
  simp [run, h]

theorem run_concat_feed {state input : Bool} {t : Instant} :
    run state (moves ++ [.feed input t]) =
      if input = state then [] else run state moves ++ [(input, t)] := by
  unfold run
  rw [List.filterMap_append]
  change ((moves.filterMap Move.input?) ++ [(input, t)]).rtakeWhile _ = _
  rw [List.rtakeWhile_concat]
  by_cases h : input = state <;> simp [h]

/-! ## One move -/

theorem step_of_untimed (d : Debounce) (h : m.time? = none) :
    (d.step m).confirmed = d.confirmed ∧ (d.step m).pendingSince = d.pendingSince := by
  cases m with
  | feed input t => cases h
  | tick t => cases h
  | setDelay delay => exact ⟨rfl, rfl⟩
  | setDelayFrom state delay => cases state <;> exact ⟨rfl, rfl⟩

theorem tick_flips_iff (d : Debounce) (t : Instant) :
    (d.tick t).confirmed ≠ d.confirmed ↔ ∃ s, d.pendingSince = some s ∧ d.delay ≤ t.since s := by
  unfold tick
  cases hp : d.pendingSince with
  | none => simp
  | some s =>
    by_cases hlong : d.delay ≤ t.since s
    · simp [hlong]
    · simp [hlong]

theorem pendingSince_tick (d : Debounce) (t : Instant) :
    (d.tick t).pendingSince =
      if (d.tick t).confirmed = d.confirmed then d.pendingSince else none := by
  unfold tick
  cases hp : d.pendingSince with
  | none => simp [hp]
  | some s =>
    by_cases hlong : d.delay ≤ t.since s
    · simp [hlong]
    · simp [hlong, hp]

/-- What is pending is the first input of the run. -/
def Waits (d : Debounce) (moves : List Move) : Prop :=
  d.pendingSince = (run d.confirmed moves).head?.map (·.2)

theorem Waits.note (h : d.Waits moves) (input : Bool) (t : Instant) :
    (d.note input t).Waits (moves ++ [.feed input t]) := by
  unfold Waits at h ⊢
  rw [note_confirmed, run_concat_feed]
  unfold Debounce.note
  split
  · rfl
  · rw [h]
    cases run d.confirmed moves <;> rfl

theorem Waits.tick (h : d.Waits moves) (t : Instant) :
    (d.tick t).Waits (if (d.tick t).confirmed = d.confirmed then moves else []) := by
  unfold Waits at h ⊢
  rw [pendingSince_tick]
  split
  next hstays => rw [hstays, h]
  next => rfl

theorem Waits.untimed (h : d.Waits moves) (hm : m.time? = none) :
    (d.step m).Waits
      (if (d.step m).confirmed = d.confirmed then moves ++ [m] else []) := by
  obtain ⟨hconfirmed, hpending⟩ := d.step_of_untimed hm
  unfold Waits at h ⊢
  rw [if_pos hconfirmed, hconfirmed, hpending, run_concat_of_none (Move.input?_eq_none hm), h]

theorem delay_note (d : Debounce) (input : Bool) (t : Instant) :
    (d.note input t).delay = d.delay := by
  unfold note
  split <;> rfl

theorem delayFrom_step (d : Debounce) (m : Move) :
    (d.step m).delayFromTrue = (m.delay? true).getD d.delayFromTrue ∧
      (d.step m).delayFromFalse = (m.delay? false).getD d.delayFromFalse := by
  cases m with
  | feed input t => exact d.delays_feed input t
  | tick t =>
    simp only [step, Debounce.tick]
    split
    · exact ⟨rfl, rfl⟩
    · split <;> exact ⟨rfl, rfl⟩
  | setDelay delay => exact ⟨rfl, rfl⟩
  | setDelayFrom state delay => cases state <;> exact ⟨rfl, rfl⟩

/-! ## Whole histories -/

theorem waits_after (initial : Bool) (moves : List Move) :
    ((start initial).after moves).Waits ((start initial).sinceFlip moves) := by
  induction moves using List.reverseRecOn with
  | nil => rfl
  | append_singleton moves m ih =>
    rw [after_concat, sinceFlip_concat]
    cases m with
    | feed input t =>
      -- An input is noted in the state before the flip, so the run still goes by that state.
      have hwaits := (ih.note input t).tick t
      rw [note_confirmed] at hwaits
      exact hwaits
    | tick t =>
      have hwaits := ih.tick t
      unfold Waits at hwaits ⊢
      rw [step, hwaits]
      split
      · rw [run_concat_of_none rfl]
      · rfl
    | setDelay delay => exact ih.untimed rfl
    | setDelayFrom state delay => exact ih.untimed rfl

theorem delaySet_concat (state : Bool) (moves : List Move) (m : Move) :
    delaySet state (moves ++ [m]) = (m.delay? state).getD (delaySet state moves) := by
  unfold delaySet
  rw [List.filterMap_append]
  cases hm : m.delay? state with
  | none => simp [hm]
  | some delay => simp [hm]

theorem delayFrom_after (initial : Bool) (moves : List Move) :
    ((start initial).after moves).delayFromTrue = delaySet true moves ∧
      ((start initial).after moves).delayFromFalse = delaySet false moves := by
  induction moves using List.reverseRecOn with
  | nil => exact ⟨rfl, rfl⟩
  | append_singleton moves m ih =>
    obtain ⟨htrue, hfalse⟩ := ((start initial).after moves).delayFrom_step m
    rw [after_concat, htrue, hfalse, delaySet_concat, delaySet_concat, ih.1, ih.2]
    exact ⟨rfl, rfl⟩

theorem delay_after (initial : Bool) (moves : List Move) :
    ((start initial).after moves).delay =
      delaySet ((start initial).after moves).confirmed moves := by
  obtain ⟨htrue, hfalse⟩ := delayFrom_after initial moves
  unfold delay
  cases ((start initial).after moves).confirmed
  · exact hfalse
  · exact htrue

theorem step_flips_iff {ms : List Move} (h : d.Waits ms) (m : Move) :
    (d.step m).confirmed ≠ d.confirmed ↔
      ∃ t first, m.time? = some t ∧ (run d.confirmed (ms ++ [m])).head? = some first ∧
        d.delay ≤ t.since first.2 := by
  cases m with
  | feed input t =>
    have hflips := (d.note input t).tick_flips_iff t
    have hwaits := h.note input t
    unfold Waits at hwaits
    rw [note_confirmed, delay_note, hwaits, note_confirmed] at hflips
    simp only [step, feed, hflips, Move.time?, Option.map_eq_some_iff]
    grind
  | tick t =>
    unfold Waits at h
    rw [run_concat_of_none rfl]
    simp only [step, tick_flips_iff, h, Move.time?, Option.map_eq_some_iff]
    grind
  | setDelay delay => simp [step, setDelay, Move.time?]
  | setDelayFrom state delay =>
    simp [(d.step_of_untimed (m := .setDelayFrom state delay) rfl).1, Move.time?]

/-- A switch flips exactly if the move tells a time and the inputs since the last flip end in a run
that differs from the state, the first of which is at least the delay back. -/
theorem flips_iff (initial : Bool) (moves : List Move) (m : Move) :
    let d := (start initial).after moves
    let waiting := fun m => run d.confirmed ((start initial).sinceFlip moves ++ [m])
    ((d.step m).confirmed ≠ d.confirmed ↔
      ∃ t first, m.time? = some t ∧ (waiting m).head? = some first ∧
        delaySet d.confirmed moves ≤ t.since first.2) ∧
    (m.time? = none → (d.step m).confirmed = d.confirmed) ∧
    ∀ t, waiting (.feed d.confirmed t) = [] ∧
      d.step (.feed d.confirmed t) = { d with pendingSince := none } := by
  intro d waiting
  have hflips := step_flips_iff (waits_after initial moves) m
  rw [delay_after] at hflips
  exact ⟨hflips, fun htime => (d.step_of_untimed htime).1,
    fun t => ⟨run_concat_feed.trans (if_pos rfl), d.feed_confirmed t⟩⟩

end Debounce

end StickArbiter
