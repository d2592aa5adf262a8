import Mathlib.Order.Bounds.Basic
import StickArbiter.Bus.Basic

/-!
# Traffic on a bus

All that happens to a bus is a move on one line. A line stands as the moves on it alone have left
it.
-/

namespace StickArbiter

/-! ## One channel -/

namespace Latest

inductive Move (α : Type)
  | send (a : α)
  | leave
  | poll

variable {α : Type}

/-- What a move leaves of a channel. A sender that has left sends nothing. -/
def step (c : Latest α) : Move α → Latest α
  | .send a => if c.hasSender then c.send a else c
  | .leave => c.closeSender
  | .poll => c.polled

def after (c : Latest α) (ms : List (Move α)) : Latest α := ms.foldl step c

theorem after_append (c : Latest α) (ms ns : List (Move α)) :
    c.after (ms ++ ns) = (c.after ms).after ns := List.foldl_append

theorem after_cons (c : Latest α) (m : Move α) (ms : List (Move α)) :
    c.after (m :: ms) = (c.step m).after ms := rfl

theorem step_cases (c : Latest α) (m : Move α) :
    (∃ a, m = .send a ∧ c.step m = { c with value := a, sent := c.sent + 1 }) ∨
      (m = .leave ∧ c.step m = c.closeSender) ∨
      (m = .poll ∧ c.step m = c.pass) ∨
      (m ≠ .leave ∧ c.step m = c) := by
  cases m with
  | send a =>
    by_cases hs : c.hasSender = true
    · by_cases hr : c.hasReader = true
      · exact .inl ⟨a, rfl, by simp [step, send, hs, hr]⟩
      · exact .inr (.inr (.inr ⟨by simp, by simp [step, send, hr]⟩))
    · exact .inr (.inr (.inr ⟨by simp, by simp [step, hs]⟩))
  | leave => exact .inr (.inl ⟨rfl, rfl⟩)
  | poll =>
    by_cases ho : c.offers = true
    · exact .inr (.inr (.inl ⟨rfl, by simp [step, polled, ho]⟩))
    · exact .inr (.inr (.inr ⟨by simp, by simp [step, polled, ho]⟩))

theorem sent_step_le (c : Latest α) (m : Move α) : c.sent ≤ (c.step m).sent := by
  rcases c.step_cases m with ⟨a, -, h⟩ | ⟨-, h⟩ | ⟨-, h⟩ | ⟨-, h⟩ <;> rw [h]
  · exact Nat.le_succ _
  · exact le_refl _
  · exact le_refl _

theorem sent_le_after (c : Latest α) (ms : List (Move α)) : c.sent ≤ (c.after ms).sent := by
  induction ms generalizing c with
  | nil => exact le_refl _
  | cons m ms ih => exact (c.sent_step_le m).trans (ih _)

theorem hasSender_step (c : Latest α) (m : Move α) :
    (c.step m).hasSender = true ↔ c.hasSender = true ∧ .leave ≠ m := by
  rcases c.step_cases m with ⟨a, rfl, h⟩ | ⟨rfl, h⟩ | ⟨rfl, h⟩ | ⟨hm, h⟩ <;> rw [h]
  · simp
  · simp [closeSender]
  · simp [pass]
  · simp [hm.symm]

theorem hasSender_after (c : Latest α) (ms : List (Move α)) :
    (c.after ms).hasSender = true ↔ c.hasSender = true ∧ .leave ∉ ms := by
  induction ms generalizing c with
  | nil => simp [after]
  | cons m ms ih => rw [after_cons, ih, hasSender_step, List.mem_cons, not_or, and_assoc]

theorem hasReader_step (c : Latest α) (m : Move α) : (c.step m).hasReader = c.hasReader := by
  rcases c.step_cases m with ⟨a, -, h⟩ | ⟨-, h⟩ | ⟨-, h⟩ | ⟨-, h⟩ <;> rw [h] <;> rfl

theorem hasReader_after (c : Latest α) (ms : List (Move α)) :
    (c.after ms).hasReader = c.hasReader := by
  induction ms generalizing c with
  | nil => rfl
  | cons m ms ih => rw [after_cons, ih, hasReader_step]

theorem passed_after (c : Latest α) (ms : List (Move α)) (h : .poll ∉ ms) :
    (c.after ms).passed = c.passed := by
  induction ms generalizing c with
  | nil => rfl
  | cons m ms ih =>
    rw [List.mem_cons, not_or] at h
    rw [after_cons, ih _ h.2]
    rcases c.step_cases m with ⟨a, -, hc⟩ | ⟨-, hc⟩ | ⟨hm, -⟩ | ⟨-, hc⟩
    · rw [hc]
    · rw [hc, closeSender]
    · exact absurd hm.symm h.1
    · rw [hc]

theorem step_of_left {c : Latest α} (h : c.hasSender = false) (m : Move α) : c.step m = c := by
  cases m with
  | send a => simp [step, h]
  | leave => rw [step, closeSender, ← h]
  | poll => simp [step, polled, offers, h]

theorem after_of_left {c : Latest α} (h : c.hasSender = false) (ms : List (Move α)) :
    c.after ms = c := by
  induction ms with
  | nil => rfl
  | cons m ms ih => rw [after_cons, step_of_left h, ih]

theorem passed_step_le {c : Latest α} (h : c.passed ≤ c.sent) (m : Move α) :
    c.passed ≤ (c.step m).passed ∧ (c.step m).passed ≤ (c.step m).sent := by
  rcases c.step_cases m with ⟨a, -, hc⟩ | ⟨-, hc⟩ | ⟨-, hc⟩ | ⟨-, hc⟩ <;> rw [hc]
  · exact ⟨le_refl _, Nat.le_succ_of_le h⟩
  · exact ⟨le_refl _, h⟩
  · exact ⟨h, le_refl _⟩
  · exact ⟨le_refl _, h⟩

theorem passed_le_after {c : Latest α} (h : c.passed ≤ c.sent) (ms : List (Move α)) :
    c.passed ≤ (c.after ms).passed ∧ (c.after ms).passed ≤ (c.after ms).sent := by
  induction ms generalizing c with
  | nil => exact ⟨le_refl _, h⟩
  | cons m ms ih =>
    obtain ⟨hle, hsent⟩ := passed_step_le h m
    exact ⟨hle.trans (ih hsent).1, (ih hsent).2⟩

end Latest

/-! ## The lines of a bus -/

inductive Line
  | input (slot : Nat)
  | switches
  | parameters
deriving DecidableEq

abbrev Line.Value : Line → Type
  | input _ => Option Sample
  | switches => Option Switches
  | parameters => Parameters

namespace Bus

structure Move where
  line : Line
  what : Latest.Move line.Value

def channel? (b : Bus) : (l : Line) → Option (Latest l.Value)
  | .input slot => b.inputs[slot]?
  | .switches => some b.switches
  | .parameters => some b.parameters

def update (b : Bus) : (l : Line) → (Latest l.Value → Latest l.Value) → Bus
  | .input slot, f => b.updateInput slot f
  | .switches, f => { b with switches := f b.switches }
  | .parameters, f => { b with parameters := f b.parameters }

def step (b : Bus) (m : Move) : Bus := b.update m.line (·.step m.what)

def after (b : Bus) (ms : List Move) : Bus := ms.foldl step b

def movesOn (l : Line) (ms : List Move) : List (Latest.Move l.Value) :=
  ms.filterMap fun m => if h : m.line = l then some (h ▸ m.what) else none

theorem after_append (b : Bus) (ms ns : List Move) : b.after (ms ++ ns) = (b.after ms).after ns :=
  List.foldl_append

theorem after_cons (b : Bus) (m : Move) (ms : List Move) :
    b.after (m :: ms) = (b.step m).after ms := rfl

theorem movesOn_append (l : Line) (ms ns : List Move) :
    movesOn l (ms ++ ns) = movesOn l ms ++ movesOn l ns := List.filterMap_append

theorem movesOn_cons_self (l : Line) (x : Latest.Move l.Value) (ms : List Move) :
    movesOn l (⟨l, x⟩ :: ms) = x :: movesOn l ms := by simp [movesOn]

theorem mem_movesOn {l : Line} {ms : List Move} {x : Latest.Move l.Value} :
    x ∈ movesOn l ms ↔ ⟨l, x⟩ ∈ ms := by
  rw [movesOn, List.mem_filterMap]
  constructor
  · rintro ⟨⟨k, y⟩, hmem, hx⟩
    by_cases h : k = l
    · subst h
      simp only [dite_true, Option.some.injEq] at hx
      exact hx ▸ hmem
    · simp [h] at hx
  · intro hmem
    exact ⟨⟨l, x⟩, hmem, by simp⟩

theorem channel?_update_self (b : Bus) (l : Line) (f : Latest l.Value → Latest l.Value) :
    (b.update l f).channel? l = (b.channel? l).map f := by
  cases l with
  | input slot => simp [update, channel?, updateInput]
  | switches => rfl
  | parameters => rfl

theorem channel?_update_of_ne (b : Bus) {k l : Line} (f : Latest k.Value → Latest k.Value)
    (h : k ≠ l) : (b.update k f).channel? l = b.channel? l := by
  cases k <;> cases l <;> simp_all [update, channel?, updateInput]

/-- A line stands as the moves on it have left it. -/
theorem channel?_after (b : Bus) (ms : List Move) (l : Line) :
    (b.after ms).channel? l = (b.channel? l).map (·.after (movesOn l ms)) := by
  induction ms generalizing b with
  | nil => simp [after, movesOn, Latest.after]
  | cons m ms ih =>
    obtain ⟨k, x⟩ := m
    rw [after_cons, ih, step]
    by_cases h : k = l
    · subst h
      rw [channel?_update_self, Option.map_map]
      simp [movesOn_cons_self, Function.comp_def, Latest.after_cons]
    · rw [channel?_update_of_ne _ _ h]
      simp [movesOn, h]

/-! ## A new bus -/

end Bus

def Line.On (count : Nat) : Line → Prop
  | input slot => slot < count
  | switches => True
  | parameters => True

def Line.first (p : Parameters) : (l : Line) → l.Value
  | input _ => none
  | switches => none
  | parameters => p

namespace Bus

theorem channel?_ofCount {count : Nat} {l : Line} (p : Parameters) (h : l.On count) :
    (ofCount count p).channel? l = some (.holding (l.first p)) := by
  cases l with
  | input slot => exact List.getElem?_replicate_of_lt h
  | switches => rfl
  | parameters => rfl

theorem channel?_ofCount_eq_none {count : Nat} {l : Line} (p : Parameters) (h : ¬ l.On count) :
    (ofCount count p).channel? l = none := by
  cases l with
  | input slot => exact List.getElem?_eq_none (by simpa [ofCount, Line.On] using h)
  | switches => exact absurd trivial h
  | parameters => exact absurd trivial h

theorem eq_holding_of_ofCount {count : Nat} {p : Parameters} {l : Line} {c : Latest l.Value}
    (h : (ofCount count p).channel? l = some c) : l.On count ∧ c = .holding (l.first p) := by
  by_cases hl : l.On count
  · rw [channel?_ofCount p hl] at h
    exact ⟨hl, (Option.some.inj h).symm⟩
  · rw [channel?_ofCount_eq_none p hl] at h
    cases h

theorem movesOn_eq_nil {l : Line} {ms : List Move} (h : ∀ m ∈ ms, m.line ≠ l) :
    movesOn l ms = [] := by
  rw [movesOn, List.filterMap_eq_nil_iff]
  intro m hm
  simp [h m hm]

/-! ## A cycle on the bus -/

def polls (count : Nat) : List Move :=
  ⟨.parameters, .poll⟩ :: (List.range count).map (fun slot => ⟨.input slot, .poll⟩) ++
    [⟨.switches, .poll⟩]

theorem movesOn_slots (count slot : Nat) :
    movesOn (.input slot) ((List.range count).map fun s => ⟨.input s, .poll⟩) =
      if slot < count then [.poll] else [] := by
  induction count with
  | zero => rfl
  | succ n ih =>
    rw [List.range_succ, List.map_append, movesOn_append, ih]
    rcases Nat.lt_trichotomy slot n with h | rfl | h
    · rw [if_pos h, if_pos (Nat.lt_succ_of_lt h)]
      simp [movesOn, Nat.ne_of_gt h]
    · rw [if_neg (Nat.lt_irrefl _), if_pos (Nat.lt_succ_self _)]
      simp [movesOn]
    · rw [if_neg (Nat.not_lt_of_gt h), if_neg (Nat.not_lt_of_le h)]
      simp [movesOn, Nat.ne_of_lt h]

theorem movesOn_polls_input (count slot : Nat) :
    movesOn (.input slot) (polls count) = if slot < count then [.poll] else [] := by
  rw [polls, movesOn_append, ← movesOn_slots]
  simp [movesOn]

theorem movesOn_polls (count : Nat) {l : Line} (h : ∀ slot, .input slot ≠ l) :
    movesOn l (polls count) = [.poll] := by
  have hslots : movesOn l ((List.range count).map fun s => ⟨.input s, .poll⟩) = [] :=
    movesOn_eq_nil (by simpa using fun s _ => h s)
  rw [polls, List.cons_append, ← List.singleton_append, movesOn_append, movesOn_append, hslots]
  cases l with
  | input slot => exact absurd rfl (h slot)
  | switches => rfl
  | parameters => rfl

theorem channel?_carry (b : Bus) (c : Call) (l : Line) :
    (b.carry c).channel? l = b.channel? l := by
  cases c with
  | command =>
    dsimp only [carry]
    split <;> cases l <;> rfl
  | publish => cases l <;> rfl

theorem channel?_foldl_carry (b : Bus) (cs : List Call) (l : Line) :
    (cs.foldl carry b).channel? l = b.channel? l := by
  induction cs generalizing b with
  | nil => rfl
  | cons c cs ih => rw [List.foldl_cons, ih, channel?_carry]

theorem channel?_cycle (b : Bus) (a : Arbiter) (now : Instant) (l : Line) :
    (b.cycle a now).1.channel? l = (b.after (polls a.selector.slotCount)).channel? l := by
  rw [cycle, channel?_foldl_carry, channel?_after]
  cases l with
  | input slot =>
    rw [movesOn_polls_input]
    by_cases h : slot < a.selector.slotCount <;>
      simp [channel?, polled, h, Latest.after, Latest.step]
  | switches => rw [movesOn_polls _ (by simp)]; rfl
  | parameters => rw [movesOn_polls _ (by simp)]; rfl

end Bus

end StickArbiter
