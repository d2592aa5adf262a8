import Mathlib.Data.List.Induction
import StickArbiter.Proofs.Waiting
import StickArbiter.Time.Timeline

/-!
# Every value at most once, the last one always

A poll takes what was sent last since the poll before. A wait takes nothing and ends once a line
that it watches holds something unseen.
-/

namespace StickArbiter

/-! ## One channel -/

namespace Latest

variable {α : Type}

def Move.sent? : Move α → Option α
  | .send a => some a
  | .leave => none
  | .poll => none

def unseen (ms : List (Move α)) : List α :=
  ms.foldl (fun seen m => match m with
    | .send a => seen ++ [a]
    | .leave => seen
    | .poll => []) []

@[simp]
theorem unseen_append_send (ms : List (Move α)) (a : α) :
    unseen (ms ++ [.send a]) = unseen ms ++ [a] := by simp [unseen]

@[simp]
theorem unseen_append_poll (ms : List (Move α)) : unseen (ms ++ [.poll]) = [] := by simp [unseen]

theorem poll?_after {c : Latest α} (hr : c.hasReader = true) (hs : c.hasSender = true)
    (hp : c.poll? = none) (hle : c.passed ≤ c.sent) {ms : List (Move α)} (h : .leave ∉ ms) :
    (c.after ms).poll? = (unseen ms).getLast? := by
  induction ms using List.reverseRecOn with
  | nil => exact hp
  | append_singleton ms m ih =>
    rw [List.mem_append, not_or, List.mem_singleton] at h
    rw [after_append]
    cases m with
    | send a =>
      have hreader : (c.after ms).hasReader = true := (c.hasReader_after ms).trans hr
      have hsender : (c.after ms).hasSender = true := (c.hasSender_after ms).mpr ⟨hs, h.1⟩
      rw [unseen_append_send, List.getLast?_concat, ← poll?_send _ a hreader hsender
        (passed_le_after hle ms).2]
      change ((c.after ms).step (.send a)).poll? = _
      rw [step, if_pos hsender]
    | leave => exact absurd rfl h.2
    | poll => rw [unseen_append_poll]; exact poll?_polled _

theorem isFresh_iff_poll? {c : Latest α} (h : c.hasSender = true) :
    c.isFresh = true ↔ c.poll?.isSome = true := by
  rw [isSome_poll?_iff, isFresh, decide_eq_true_iff]
  exact (and_iff_right h).symm

theorem poll?_step_sublist (c : Latest α) (m : Move α) :
    (c.step m).poll?.toList.Sublist (c.poll?.toList ++ m.sent?.toList) := by
  rcases c.step_cases m with ⟨a, rfl, h⟩ | ⟨rfl, h⟩ | ⟨rfl, h⟩ | ⟨-, h⟩
  · refine List.Sublist.trans ?_ (List.sublist_append_right _ _)
    rw [h]
    cases ho : ({ c with value := a, sent := c.sent + 1 } : Latest α).offers <;>
      simp [poll?, ho, Move.sent?]
  · rw [h]
    simp [poll?, offers, closeSender]
  · rw [h]
    simp [poll?, offers, isFresh, pass]
  · rw [h]
    exact List.sublist_append_left _ _

end Latest

/-! ## The bus -/

namespace Bus

/-- What has been sent on a line since its last poll. -/
def unseen (l : Line) (ms : List Move) : List l.Value := Latest.unseen (movesOn l ms)

def sends (l : Line) (ms : List Move) : List l.Value := (movesOn l ms).filterMap (·.sent?)

/-- What the polls of a line take, in order. -/
def takings (l : Line) : Bus → List Move → List l.Value
  | _, [] => []
  | b, ⟨k, .poll⟩ :: ms =>
    (if k = l then (b.take? l).toList else []) ++ takings l (b.step ⟨k, .poll⟩) ms
  | b, m :: ms => takings l (b.step m) ms

theorem take?_step_of_ne (b : Bus) {m : Move} {l : Line} (h : m.line ≠ l) :
    (b.step m).take? l = b.take? l := by
  rw [take?, step, channel?_update_of_ne _ _ h, take?]

theorem take?_step_sublist (b : Bus) (l : Line) (x : Latest.Move l.Value) :
    ((b.step ⟨l, x⟩).take? l).toList.Sublist ((b.take? l).toList ++ x.sent?.toList) := by
  rw [take?, take?, step, channel?_update_self]
  cases b.channel? l with
  | none => exact List.nil_sublist _
  | some c => exact c.poll?_step_sublist x

theorem take?_step_poll (b : Bus) (l : Line) : (b.step ⟨l, .poll⟩).take? l = none := by
  rw [take?, step, channel?_update_self]
  cases b.channel? l with
  | none => rfl
  | some c => exact c.poll?_polled

/-- Each value sent is taken at most once, in the order of sending. -/
theorem takings_sublist (b : Bus) (l : Line) (ms : List Move) :
    (takings l b ms).Sublist ((b.take? l).toList ++ sends l ms) := by
  induction ms generalizing b with
  | nil => exact List.nil_sublist _
  | cons m ms ih =>
    obtain ⟨k, x⟩ := m
    by_cases hk : k = l
    · subst hk
      have hsends : sends k (⟨k, x⟩ :: ms) = x.sent?.toList ++ sends k ms := by
        cases h : x.sent? <;> simp [sends, movesOn_cons_self, h]
      rw [hsends, ← List.append_assoc]
      have hrest := (ih (b.step ⟨k, x⟩)).trans ((take?_step_sublist b k x).append_right _)
      cases x with
      | send a => exact hrest
      | leave => exact hrest
      | poll =>
        -- What the poll takes is not offered again.
        have htaken := ih (b.step ⟨k, .poll⟩)
        rw [take?_step_poll] at htaken
        simpa [takings, Latest.Move.sent?] using htaken
    · have hsends : sends l (⟨k, x⟩ :: ms) = sends l ms := by simp [sends, movesOn, hk]
      have hrest := ih (b.step ⟨k, x⟩)
      rw [take?_step_of_ne b (m := ⟨k, x⟩) hk] at hrest
      rw [hsends]
      cases x with
      | send a => exact hrest
      | leave => exact hrest
      | poll => simpa [takings, hk] using hrest

end Bus

/-! ## Waits -/

/-- What is sent before the timeout of a wait is over. -/
def Wakeup.meanwhile (w : Wakeup) (arrivals : List (Timed Bus.Move)) : List Bus.Move :=
  (arrivals.takeWhile (·.time < w.timeout.millisCeil)).map (·.what)

namespace Bus

/-- After how many of the moves made meanwhile a wait ends. -/
def wokenAfter? (w : Wakeup) : Bus → List Move → Option Nat
  | b, [] => if b.wakes w then some 0 else none
  | b, m :: ms => if b.wakes w then some 0 else (wokenAfter? w (b.step m) ms).map (· + 1)

theorem wakes_after {b : Bus} {w : Wakeup} {ms : List Move} (hms : ∀ l, ⟨l, .poll⟩ ∉ ms)
    (h : b.wakes w = true) : (b.after ms).wakes w = true := by
  rw [wakes_iff] at h
  obtain ⟨l, hw, hfresh⟩ := h
  refine (wakes_iff_exists_ends b w ms hms).mpr ⟨l, ?_⟩
  rw [ends, hw, Bool.true_and, channel?_after]
  cases hc : b.channel? l with
  | none => simp [hc] at hfresh
  | some c =>
    have hfresh : c.passed < c.sent := by simpa [hc, Latest.isFresh] using hfresh
    simpa [Latest.finds_eq_changed_iff] using hfresh.trans_le (c.sent_le_after _)

theorem isSome_wokenAfter?_iff {w : Wakeup} {b : Bus} {ms : List Move}
    (h : ∀ l, ⟨l, .poll⟩ ∉ ms) :
    (wokenAfter? w b ms).isSome = true ↔ (b.after ms).wakes w = true := by
  induction ms generalizing b with
  | nil => cases hb : b.wakes w <;> simp [wokenAfter?, after, hb]
  | cons m ms ih =>
    cases hb : b.wakes w with
    | true => simp [wokenAfter?, hb, wakes_after h hb]
    | false =>
      rw [wokenAfter?, hb, if_neg Bool.false_ne_true, Option.isSome_map, after_cons]
      exact ih fun l hmem => h l (List.mem_cons_of_mem _ hmem)

theorem wakes_of_wokenAfter? {w : Wakeup} {b : Bus} {ms : List Move} {n : Nat}
    (h : wokenAfter? w b ms = some n) : (b.after (ms.take n)).wakes w = true := by
  induction ms generalizing b n with
  | nil =>
    rw [wokenAfter?] at h
    split at h
    · simpa [after]
    · cases h
  | cons m ms ih =>
    rw [wokenAfter?] at h
    split at h
    · cases h
      simpa [after]
    · obtain ⟨k, hk, rfl⟩ := Option.map_eq_some_iff.mp h
      exact ih hk

/-! ## A bus whose senders stay -/

section

variable {count : Nat} {p : Parameters} {log : List Move} {l : Line}

theorem channel?_after_of_on (log : List Move) (h : l.On count) :
    ((ofCount count p).after log).channel? l =
      some ((Latest.holding (l.first p)).after (movesOn l log)) := by
  rw [channel?_after, channel?_ofCount p h]
  rfl

theorem channel?_after_of_not_on (log : List Move) (h : ¬l.On count) :
    ((ofCount count p).after log).channel? l = none := by
  rw [channel?_after, channel?_ofCount_eq_none p h]
  rfl

theorem take?_after (hopen : ⟨l, .leave⟩ ∉ log) (h : l.On count) :
    ((ofCount count p).after log).take? l = (unseen l log).getLast? := by
  rw [take?, channel?_after_of_on log h]
  exact Latest.poll?_after (c := .holding (l.first p)) rfl rfl rfl (Nat.le_refl 0)
    (mt mem_movesOn.mp hopen)

theorem take?_after_of_not_on (log : List Move) (h : ¬l.On count) :
    ((ofCount count p).after log).take? l = none := by
  rw [take?, channel?_after_of_not_on log h]
  rfl

theorem isFresh_after_iff (hopen : ⟨l, .leave⟩ ∉ log) :
    (((ofCount count p).after log).channel? l).any Latest.isFresh = true ↔
      l.On count ∧ unseen l log ≠ [] := by
  by_cases h : l.On count
  · have hsender : ((Latest.holding (l.first p)).after (movesOn l log)).hasSender = true :=
      (Latest.hasSender_after _ _).mpr ⟨rfl, mt mem_movesOn.mp hopen⟩
    have htake := take?_after (p := p) hopen h
    rw [take?, channel?_after_of_on log h, Option.bind_some] at htake
    rw [channel?_after_of_on log h, Option.any_some, Latest.isFresh_iff_poll? hsender, htake,
      List.getLast?_isSome]
    simp [h]
  · simp [channel?_after_of_not_on log h, h]

theorem wakes_after_iff (w : Wakeup) (hopen : ∀ l, ⟨l, .leave⟩ ∉ log) :
    ((ofCount count p).after log).wakes w = true ↔
      ∃ l, w.watches l = true ∧ l.On count ∧ unseen l log ≠ [] := by
  rw [wakes_iff]
  exact exists_congr fun l => and_congr_right fun _ => isFresh_after_iff (hopen l)

theorem pollInput?_after (hopen : ∀ l, ⟨l, .leave⟩ ∉ log) (slot : Nat) :
    ((ofCount count p).after log).pollInput? slot =
      if slot < count then (unseen (.input slot) log).getLast?.join else none := by
  rw [pollInput?_eq]
  split
  next h => rw [take?_after (l := .input slot) (hopen _) h]
  next h => rw [take?_after_of_not_on (l := .input slot) log h]; rfl

variable {meanwhile : List Move} {w : Wakeup}

theorem not_mem_of_sends (h : ∀ m ∈ meanwhile, ∃ l v, m = ⟨l, .send v⟩) :
    (∀ l, ⟨l, .poll⟩ ∉ meanwhile) ∧ ∀ l, ⟨l, .leave⟩ ∉ meanwhile := by
  constructor
  · intro l hl
    obtain ⟨k, v, heq⟩ := h _ hl
    cases heq
  · intro l hl
    obtain ⟨k, v, heq⟩ := h _ hl
    cases heq

theorem woken_iff (hopen : ∀ l, ⟨l, .leave⟩ ∉ log)
    (hsends : ∀ m ∈ meanwhile, ∃ l v, m = ⟨l, .send v⟩) :
    (((ofCount count p).after log).wokenAfter? w meanwhile).isSome = true ↔
      ∃ l, w.watches l = true ∧ l.On count ∧ unseen l (log ++ meanwhile) ≠ [] := by
  obtain ⟨hpolls, hleaves⟩ := not_mem_of_sends hsends
  rw [isSome_wokenAfter?_iff hpolls, ← after_append]
  exact wakes_after_iff w fun l hl => (List.mem_append.mp hl).elim (hopen l) (hleaves l)

theorem offered_of_woken (hopen : ∀ l, ⟨l, .leave⟩ ∉ log)
    (hsends : ∀ m ∈ meanwhile, ∃ l v, m = ⟨l, .send v⟩) {n : Nat}
    (hn : ((ofCount count p).after log).wokenAfter? w meanwhile = some n) :
    ∃ l, w.watches l = true ∧ l.On count ∧
      ((((ofCount count p).after log).after (meanwhile.take n)).take? l).isSome = true := by
  have hwakes := wakes_of_wokenAfter? hn
  rw [← after_append] at hwakes ⊢
  have hstay : ∀ l, ⟨l, .leave⟩ ∉ log ++ meanwhile.take n := by
    intro l hl
    rcases List.mem_append.mp hl with hl | hl
    · exact hopen l hl
    · exact (not_mem_of_sends hsends).2 l (List.mem_of_mem_take hl)
  obtain ⟨l, hw, hon, hunseen⟩ := (wakes_after_iff w hstay).mp hwakes
  refine ⟨l, hw, hon, ?_⟩
  rw [take?_after (hstay l) hon, List.getLast?_isSome]
  exact hunseen

theorem take?_ofCount (count : Nat) (p : Parameters) (l : Line) :
    (ofCount count p).take? l = none := by
  by_cases h : l.On count
  · exact take?_after (p := p) List.not_mem_nil h
  · exact take?_after_of_not_on (p := p) [] h

end

/-- While no sender leaves, a poll takes the last value sent on its line since the poll before, and
a wait ends once a line that it watches has one. -/
theorem delivery (count : Nat) (p : Parameters) (log : List Move)
    (hopen : ∀ l, ⟨l, .leave⟩ ∉ log) :
    let first := ofCount count p
    let b := first.after log
    (∀ slot, b.pollInput? slot =
      if slot < count then (unseen (.input slot) log).getLast?.join else none) ∧
    b.pollSwitches? = (unseen .switches log).getLast?.join ∧
    b.pollParameters? = (unseen .parameters log).getLast? ∧
    (∀ (m : Move) (l : Line), m.line ≠ l → (b.step m).take? l = b.take? l) ∧
    (∀ l, (takings l first log).Sublist (sends l log)) ∧
    ∀ (w : Wakeup) (arrivals : List (Timed Move)),
      (∀ x ∈ arrivals, ∃ l v, x.what = ⟨l, .send v⟩) →
      let meanwhile := w.meanwhile arrivals
      ((b.wokenAfter? w meanwhile).isSome = true ↔
        ∃ l, w.watches l = true ∧ l.On count ∧ unseen l (log ++ meanwhile) ≠ []) ∧
      ∀ n, b.wokenAfter? w meanwhile = some n →
        ∃ l, w.watches l = true ∧ l.On count ∧
          ((b.after (meanwhile.take n)).take? l).isSome = true := by
  intro first b
  refine ⟨pollInput?_after hopen, ?_, ?_, fun m l hm => b.take?_step_of_ne hm, fun l => ?_, ?_⟩
  · exact congrArg Option.join (take?_after (l := .switches) (hopen _) trivial)
  · exact take?_after (l := .parameters) (hopen _) trivial
  · simpa [first, take?_ofCount] using first.takings_sublist l log
  · intro w arrivals hsends meanwhile
    have hmeanwhile : ∀ m ∈ meanwhile, ∃ l v, m = ⟨l, .send v⟩ := by
      intro m hm
      obtain ⟨x, hx, rfl⟩ := List.mem_map.mp hm
      exact hsends x ((List.takeWhile_sublist _).mem hx)
    exact ⟨woken_iff hopen hmeanwhile, fun n hn => offered_of_woken hopen hmeanwhile hn⟩

/-- Slot 0 has been polled since its last send, slot 1 has not. -/
def halfPolled : List Move :=
  [⟨.input 0, .send (some default)⟩, ⟨.input 1, .send (some default)⟩, ⟨.input 0, .poll⟩]

/-- The wait on slot 0 sleeps through a send on slot 1. -/
theorem delivery_halfPolled :
    let b := (ofCount 2 default).after halfPolled
    let w : Wakeup := { onInput := some 0, timeout := .ofMillis 20 }
    let early : Timed Move := ⟨5, ⟨.input 1, .send (some default)⟩⟩
    let late : Timed Move := ⟨15, ⟨.input 0, .send (some default)⟩⟩
    b.pollInput? 0 = none ∧ b.pollInput? 1 = some default ∧ b.pollInput? 2 = none ∧
      ¬(b.wokenAfter? w (w.meanwhile [early])).isSome = true ∧
      (b.wokenAfter? w (w.meanwhile [early, late])).isSome = true := by
  intro b w early late
  have hopen : ∀ l, ⟨l, .leave⟩ ∉ halfPolled := by
    intro l hl
    simp only [halfPolled, List.mem_cons, List.not_mem_nil, or_false] at hl
    rcases hl with h | h | h <;> cases h
  obtain ⟨hinput, -, -, -, -, hwait⟩ := delivery 2 default halfPolled hopen
  refine ⟨hinput 0, hinput 1, hinput 2, ?_, ?_⟩
  · rw [(hwait w [early] (by simp [early])).1]
    rintro ⟨l, hw, -, hunseen⟩
    cases l with
    | input slot =>
      obtain rfl : 0 = slot := Option.some.inj (of_decide_eq_true hw)
      exact hunseen (by decide)
    | switches => cases hw
    | parameters => cases hw
  · have hunseen : unseen (.input 0) (halfPolled ++ w.meanwhile [early, late]) ≠ [] := by decide
    exact (hwait w [early, late] (by simp [early, late])).1.mpr
      ⟨.input 0, rfl, Nat.zero_lt_two, hunseen⟩

end Bus

end StickArbiter
