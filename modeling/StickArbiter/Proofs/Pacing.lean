import Mathlib.Algebra.BigOperators.Intervals
import Mathlib.Data.List.Basic
import StickArbiter.Recording.Playback

/-!
# The pace of playback

A sample is due when the gaps between the stamps have passed, steps back counting as none. What is
due while somebody listens is sent.
-/

namespace StickArbiter

namespace Playback

/-! ## When the samples are due -/

/-- The times at which some samples are due, if the one before them was sent at `time`. -/
def Setting.dues (s : Setting) : Nat → Option Instant → List Sample → List Nat
  | _, _, [] => []
  | time, previous, x :: xs =>
    s.due time previous x :: s.dues (s.due time previous x) (some x.timestamp) xs

def Setting.live (s : Setting) (due : Nat) (x : Sample) : Timed Sample :=
  ⟨due, { x with timestamp := s.clock due }⟩

variable (s : Setting) (count time : Nat) (previous : Option Instant) (xs : List Sample)

theorem length_dues : (s.dues time previous xs).length = xs.length := by
  induction xs generalizing time previous with
  | nil => rfl
  | cons x xs ih => rw [Setting.dues, List.length_cons, ih, List.length_cons]

theorem le_of_mem_dues {due : Nat} (h : due ∈ s.dues time previous xs) : time ≤ due := by
  induction xs generalizing time previous with
  | nil => cases h
  | cons x xs ih =>
    have hfirst : time ≤ s.due time previous x := Nat.le_add_right _ _
    rcases List.mem_cons.mp h with rfl | h
    · exact hfirst
    · exact hfirst.trans (ih _ _ h)

theorem pairwise_dues : (s.dues time previous xs).Pairwise (· ≤ ·) := by
  induction xs generalizing time previous with
  | nil => exact .nil
  | cons x xs ih => exact .cons (fun _ h => le_of_mem_dues _ _ _ _ h) (ih _ _)

theorem getElem?_dues_succ {k due : Nat} {x y : Sample}
    (hdue : (s.dues time previous xs)[k]? = some due) (hx : xs[k]? = some x)
    (hy : xs[k + 1]? = some y) :
    (s.dues time previous xs)[k + 1]? = some (due + s.wait (y.timestamp.since x.timestamp)) := by
  induction xs generalizing time previous k with
  | nil => cases hx
  | cons z zs ih =>
    cases k with
    | zero =>
      cases hx
      cases hdue
      cases zs with
      | nil => cases hy
      | cons z zs => cases hy; rfl
    | succ k => exact ih _ _ hdue hx hy

/-! ## What is sent -/

theorem hears_of_le {early late : Nat} (h : early ≤ late) (hlate : s.hears late = true) :
    s.hears early = true := by
  unfold Setting.hears at hlate ⊢
  cases hleaves : s.leaves with
  | none => rfl
  | some t =>
    rw [hleaves, Option.all_some, decide_eq_true_iff] at hlate
    exact decide_eq_true (h.trans hlate)

theorem sent_rest :
    (rest s count time previous xs).sent =
      List.zipWith s.live ((s.dues time previous xs).takeWhile s.hears) xs := by
  induction xs generalizing time previous with
  | nil => rfl
  | cons x xs ih =>
    rw [rest, Setting.dues]
    cases hheard : s.hears (s.due time previous x)
    · rw [List.takeWhile_cons_of_neg (by simp [hheard])]
      rfl
    · rw [List.takeWhile_cons_of_pos hheard, List.zipWith_cons_cons, ← ih]
      rfl

theorem ending_rest :
    (rest s count time previous xs).ending =
      match (s.dues time previous xs)[((s.dues time previous xs).takeWhile s.hears).length]? with
      | some due => ⟨due, .unheard⟩
      | none => ⟨(s.dues time previous xs).getLastD time, .finished count⟩ := by
  induction xs generalizing time previous with
  | nil => rfl
  | cons x xs ih =>
    rw [rest, Setting.dues]
    cases hheard : s.hears (s.due time previous x)
    · rw [List.takeWhile_cons_of_neg (by simp [hheard])]
      rfl
    · rw [List.takeWhile_cons_of_pos hheard, List.length_cons, List.getElem?_cons_succ,
        List.getLastD_cons]
      exact ih _ _

theorem lt_length_takeWhile_iff {p : Nat → Bool} (hp : ∀ a b, a ≤ b → p b = true → p a = true)
    {l : List Nat} (hl : l.Pairwise (· ≤ ·)) {k t : Nat} (hk : l[k]? = some t) :
    k < (l.takeWhile p).length ↔ p t = true := by
  induction l generalizing k with
  | nil => cases hk
  | cons a l ih =>
    obtain ⟨hle, hl⟩ := List.pairwise_cons.mp hl
    by_cases ha : p a = true
    · rw [List.takeWhile_cons_of_pos ha, List.length_cons]
      cases k with
      | zero =>
        cases hk
        exact iff_of_true (Nat.succ_pos _) ha
      | succ k =>
        rw [Nat.succ_lt_succ_iff]
        exact ih hl hk
    · rw [List.takeWhile_cons_of_neg ha]
      have hat : a ≤ t := by
        rcases List.mem_cons.mp (List.mem_of_getElem? hk) with rfl | ht
        · exact le_rfl
        · exact hle t ht
      exact iff_of_false (Nat.not_lt_zero k) fun ht => ha (hp a t hat ht)

/-- Time in microseconds, and each wait as long as the span. -/
def Setting.exact (clock : Nat → Instant) (leaves : Option Nat) : Setting :=
  { wait := Span.micros, clock := clock, leaves := leaves }

end Playback

/-! ## A whole recording -/

namespace Recording

def stamp (r : Recording) (k : Nat) : Nat := (r.samples[k]?.map (·.timestamp.micros)).getD 0

/-- The gaps before a sample, added up. -/
def delay (r : Recording) (k : Nat) : Nat :=
  ∑ i ∈ Finset.range k, (r.stamp (i + 1) - r.stamp i)

variable (r : Recording)

theorem delay_succ (k : Nat) : r.delay (k + 1) = r.delay k + (r.stamp (k + 1) - r.stamp k) :=
  Finset.sum_range_succ _ k

theorem stamp_of_getElem? {k : Nat} {x : Sample} (h : r.samples[k]? = some x) :
    r.stamp k = x.timestamp.micros := by
  rw [stamp, h]
  rfl

theorem le_delay (k : Nat) : r.stamp k - r.stamp 0 ≤ r.delay k := by
  induction k with
  | zero => simp
  | succ k ih =>
    rw [delay_succ]
    omega

theorem delay_of_ordered {k : Nat} (h : ∀ i < k, r.stamp i ≤ r.stamp (i + 1)) :
    r.delay k = r.stamp k - r.stamp 0 ∧ r.stamp 0 ≤ r.stamp k := by
  induction k with
  | zero => simp [delay]
  | succ k ih =>
    obtain ⟨hdelay, hle⟩ := ih fun i hi => h i (hi.trans k.lt_succ_self)
    have hstep := h k k.lt_succ_self
    rw [delay_succ]
    omega

theorem stamp_le_of_pairwise (h : r.samples.Pairwise (·.timestamp ≤ ·.timestamp)) {i : Nat}
    (hi : i + 1 < r.samples.length) : r.stamp i ≤ r.stamp (i + 1) := by
  have hx := List.getElem?_eq_getElem (Nat.lt_of_succ_lt hi)
  have hy := List.getElem?_eq_getElem hi
  rw [stamp_of_getElem? r hx, stamp_of_getElem? r hy]
  exact List.pairwise_iff_getElem.mp h i (i + 1) _ hi i.lt_succ_self

variable (clock : Nat → Instant) (leaves : Option Nat) (start : Nat)

def dues : List Nat := (Playback.Setting.exact clock leaves).dues start none r.samples

/-- How many samples are due while somebody listens. -/
def heard : Nat :=
  ((r.dues clock leaves start).takeWhile (Playback.Setting.exact clock leaves).hears).length

theorem length_dues : (r.dues clock leaves start).length = r.samples.length :=
  Playback.length_dues _ _ _ _

theorem getElem?_dues {k : Nat} (hk : k < r.samples.length) :
    (r.dues clock leaves start)[k]? = some (start + r.delay k) := by
  induction k with
  | zero =>
    rw [dues]
    cases hs : r.samples with
    | nil => rw [hs] at hk; cases hk
    | cons x xs => rfl
  | succ k ih =>
    have hx := List.getElem?_eq_getElem (Nat.lt_of_succ_lt hk)
    have hy := List.getElem?_eq_getElem hk
    rw [dues, Playback.getElem?_dues_succ _ _ _ _ (ih (Nat.lt_of_succ_lt hk)) hx hy, delay_succ,
      stamp_of_getElem? r hx, stamp_of_getElem? r hy, ← Nat.add_assoc, ← Instant.micros_since]
    rfl

theorem getLastD_dues :
    (r.dues clock leaves start).getLastD start = start + r.delay (r.samples.length - 1) := by
  rw [List.getLastD_eq_getLast?, List.getLast?_eq_getElem?, length_dues]
  rcases Nat.eq_zero_or_pos r.samples.length with hnone | hsome
  · rw [dues, List.length_eq_zero_iff.mp hnone]
    rfl
  · rw [r.getElem?_dues clock leaves start (Nat.sub_lt hsome Nat.one_pos)]
    rfl

theorem hears_exact (due : Nat) :
    (Playback.Setting.exact clock leaves).hears due = true ↔ ∀ t ∈ leaves, due ≤ t := by
  change leaves.all (due ≤ ·) = true ↔ _
  cases leaves <;> simp

theorem heard_le_length : r.heard clock leaves start ≤ r.samples.length :=
  r.length_dues clock leaves start ▸ (List.takeWhile_prefix _).length_le

theorem lt_heard_iff {k : Nat} (hk : k < r.samples.length) :
    k < r.heard clock leaves start ↔ ∀ t ∈ leaves, start + r.delay k ≤ t := by
  rw [← hears_exact clock leaves]
  exact Playback.lt_length_takeWhile_iff (fun _ _ => Playback.hears_of_le _)
    (Playback.pairwise_dues _ _ _ _) (r.getElem?_dues clock leaves start hk)

theorem sent_playFrom :
    (r.playFrom (.exact clock leaves) start).sent =
      (r.samples.take (r.heard clock leaves start)).mapIdx fun k x =>
        ⟨start + r.delay k, { x with timestamp := clock (start + r.delay k) }⟩ := by
  have htake : (r.dues clock leaves start).takeWhile (Playback.Setting.exact clock leaves).hears =
      (r.dues clock leaves start).take (r.heard clock leaves start) :=
    List.prefix_iff_eq_take.mp (List.takeWhile_prefix _)
  rw [playFrom, Playback.sent_rest]
  change List.zipWith _ ((r.dues clock leaves start).takeWhile _) _ = _
  rw [htake]
  refine List.ext_getElem? fun k => ?_
  rw [List.getElem?_zipWith, List.getElem?_mapIdx]
  by_cases hk : k < r.heard clock leaves start
  · have hlength := hk.trans_le (r.heard_le_length clock leaves start)
    rw [List.getElem?_take_of_lt hk, List.getElem?_take_of_lt hk,
      r.getElem?_dues clock leaves start hlength, List.getElem?_eq_getElem hlength]
    rfl
  · rw [List.getElem?_take_eq_none (Nat.not_lt.mp hk),
      List.getElem?_take_eq_none (Nat.not_lt.mp hk)]
    rfl

theorem ending_playFrom :
    (r.playFrom (.exact clock leaves) start).ending =
      match (r.dues clock leaves start)[r.heard clock leaves start]? with
      | some due => ⟨due, .unheard⟩
      | none => ⟨(r.dues clock leaves start).getLastD start, .finished r.samples.length⟩ :=
  Playback.ending_rest _ _ _ _ _

theorem ending_of_heard_lt (h : r.heard clock leaves start < r.samples.length) :
    (r.playFrom (.exact clock leaves) start).ending =
      ⟨start + r.delay (r.heard clock leaves start), .unheard⟩ := by
  rw [ending_playFrom, r.getElem?_dues clock leaves start h]

theorem ending_of_heard_all (h : r.heard clock leaves start = r.samples.length) :
    (r.playFrom (.exact clock leaves) start).ending =
      ⟨start + r.delay (r.samples.length - 1), .finished r.samples.length⟩ := by
  have hnone : (r.dues clock leaves start)[r.heard clock leaves start]? = none :=
    List.getElem?_eq_none (by rw [length_dues, h])
  rw [ending_playFrom, hnone, getLastD_dues]

theorem closes_of_heard_all (h : r.heard clock leaves start = r.samples.length) :
    (r.playFrom (.exact clock leaves) start).closes leaves = leaves.map (max start) := by
  rw [Playback.closes, r.ending_of_heard_all clock leaves start h]
  refine Option.map_congr fun t ht => ?_
  change max (start + r.delay (r.samples.length - 1)) t = max start t
  rcases Nat.eq_zero_or_pos r.samples.length with hzero | hpos
  · rw [hzero]
    rfl
  · have hlast := Nat.sub_lt hpos Nat.one_pos
    have hdue := (r.lt_heard_iff clock leaves start hlast).mp (h ▸ hlast) t ht
    omega

/-- Each sample is sent as it was recorded but for the stamp, as late after the start as the gaps
before it add up to. Exactly the samples due while somebody listens are sent. -/
theorem playFrom_paced :
    (∃ n ≤ r.samples.length,
      (r.playFrom (.exact clock leaves) start).sent =
        ((r.samples.take n).mapIdx fun k x =>
          ⟨start + r.delay k, { x with timestamp := clock (start + r.delay k) }⟩) ∧
      (∀ k < r.samples.length, k < n ↔ ∀ t ∈ leaves, start + r.delay k ≤ t) ∧
      (n < r.samples.length →
        (r.playFrom (.exact clock leaves) start).ending = ⟨start + r.delay n, .unheard⟩ ∧
        (r.playFrom (.exact clock leaves) start).closes leaves = some (start + r.delay n)) ∧
      (n = r.samples.length →
        (r.playFrom (.exact clock leaves) start).ending = ⟨start + r.delay (n - 1), .finished n⟩ ∧
        (r.playFrom (.exact clock leaves) start).closes leaves = leaves.map (max start))) ∧
    (∀ k, r.stamp k - r.stamp 0 ≤ r.delay k) ∧
    (r.samples.Pairwise (·.timestamp ≤ ·.timestamp) →
      ∀ k < r.samples.length, r.delay k = r.stamp k - r.stamp 0) := by
  refine ⟨⟨r.heard clock leaves start, r.heard_le_length clock leaves start,
    r.sent_playFrom clock leaves start, fun k hk => r.lt_heard_iff clock leaves start hk,
    fun h => ?_, fun h => ?_⟩, r.le_delay, fun hordered k hk => ?_⟩
  · have hend := r.ending_of_heard_lt clock leaves start h
    exact ⟨hend, by rw [Playback.closes, hend]⟩
  · have hend := r.ending_of_heard_all clock leaves start h
    exact ⟨by rw [hend, h], r.closes_of_heard_all clock leaves start h⟩
  · exact (r.delay_of_ordered fun i hi => r.stamp_le_of_pairwise hordered (by omega)).1

def stamped (micros : Nat) : Sample :=
  { axes := .zero, timestamp := .ofMicros micros, source := .rc }

def steppingBack : Recording := ⟨[stamped 1000, stamped 5000, stamped 2000, stamped 9000]⟩

def steady : Recording := ⟨[stamped 1000, stamped 5000]⟩

/-- The listener leaves after the samples due at 4100. -/
theorem playFrom_steppingBack :
    (steppingBack.playFrom (.exact .ofMicros (some 5000)) 100).sent =
        [⟨100, stamped 100⟩, ⟨4100, stamped 4100⟩, ⟨4100, stamped 4100⟩] ∧
      (steppingBack.playFrom (.exact .ofMicros (some 5000)) 100).closes (some 5000) = some 11100 ∧
      (steady.playFrom (.exact .ofMicros (some 5000)) 100).closes (some 5000) = some 5000 ∧
      steady.delay 1 = 4000 := by
  obtain ⟨⟨n, hn, hsent, hheard, hlate, -⟩, -, -⟩ :=
    playFrom_paced steppingBack .ofMicros (some 5000) 100
  obtain ⟨⟨m, hm, -, hheard', -, hall⟩, -, hordered⟩ :=
    playFrom_paced steady .ofMicros (some 5000) 100
  have hlt : 2 < n := (hheard 2 (by decide)).mpr (by decide)
  have hge : ¬ 3 < n := fun h => absurd ((hheard 3 (by decide)).mp h) (by decide)
  have hthree : n = 3 := by omega
  have hlt' : 1 < m := (hheard' 1 (by decide)).mpr (by decide)
  have htwo : m = 2 := Nat.le_antisymm hm hlt'
  subst hthree htwo
  exact ⟨hsent, (hlate (by decide)).2, (hall rfl).2, hordered (by decide) 1 (by decide)⟩

end Recording

end StickArbiter
