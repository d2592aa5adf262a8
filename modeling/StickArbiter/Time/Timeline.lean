/-!
# Timelines

Happenings with their times in milliseconds, in order. Two timelines merge into one, a timer is the
timeline of its ticks, and who looks at a timeline only once a millisecond sees the last happening
of each.
-/

namespace StickArbiter

/-- Something and the millisecond at which it happens. -/
structure Timed (α : Type) where
  time : Nat
  what : α
deriving DecidableEq

namespace Timed

def map (f : α → β) (x : Timed α) : Timed β := ⟨x.time, f x.what⟩

end Timed

namespace Timeline

/-- Both timelines in one; at one time the first goes first. -/
def merge : List (Timed α) → List (Timed α) → List (Timed α)
  | [], ys => ys
  | x :: xs, ys => ys.takeWhile (·.time < x.time) ++ x :: merge xs (ys.dropWhile (·.time < x.time))

theorem perm_merge (xs ys : List (Timed α)) : (merge xs ys).Perm (xs ++ ys) := by
  induction xs generalizing ys with
  | nil => simp [merge]
  | cons x xs ih =>
    let early := ys.takeWhile (·.time < x.time)
    let late := ys.dropWhile (·.time < x.time)
    have split : early ++ late = ys := List.takeWhile_append_dropWhile
    have moved : (early ++ x :: (xs ++ late)).Perm (x :: xs ++ (early ++ late)) :=
      (List.perm_append_comm_assoc early (x :: xs) late)
    rw [split] at moved
    exact (((ih late).cons x).append_left early).trans moved

theorem map_merge (f : α → β) (xs ys : List (Timed α)) :
    (merge xs ys).map (Timed.map f) = merge (xs.map (Timed.map f)) (ys.map (Timed.map f)) := by
  induction xs generalizing ys with
  | nil => rfl
  | cons x xs ih =>
    rw [merge, List.map_append, List.map_cons, ih, List.map_cons, merge, List.takeWhile_map,
      List.dropWhile_map]
    rfl

theorem mem_merge {x : Timed α} {xs ys : List (Timed α)} :
    x ∈ merge xs ys ↔ x ∈ xs ∨ x ∈ ys := by
  rw [(perm_merge xs ys).mem_iff, List.mem_append]

theorem mem_foldr_merge {x : Timed α} {xss : List (List (Timed α))} :
    x ∈ xss.foldr merge [] ↔ ∃ xs ∈ xss, x ∈ xs := by
  induction xss with
  | nil => simp
  | cons xs xss ih => simp [mem_merge, ih]

theorem le_of_mem_dropWhile {ys : List (Timed α)} (hys : ys.Pairwise (·.time ≤ ·.time))
    {t : Nat} {y : Timed α} (h : y ∈ ys.dropWhile (·.time < t)) : t ≤ y.time := by
  have hlate := hys.sublist (List.dropWhile_sublist (·.time < t))
  have hfirst := List.head?_dropWhile_not (·.time < t) ys
  cases hdrop : ys.dropWhile (·.time < t) with
  | nil => simp [hdrop] at h
  | cons z zs =>
    rw [hdrop] at h hlate hfirst
    have hz : t ≤ z.time := by simpa using hfirst
    rcases List.mem_cons.mp h with rfl | h
    · exact hz
    · exact Nat.le_trans hz (List.rel_of_pairwise_cons hlate h)

/-- What comes in order is merged in order. -/
theorem pairwise_merge {xs ys : List (Timed α)} (hxs : xs.Pairwise (·.time ≤ ·.time))
    (hys : ys.Pairwise (·.time ≤ ·.time)) : (merge xs ys).Pairwise (·.time ≤ ·.time) := by
  induction xs generalizing ys with
  | nil => exact hys
  | cons x xs ih =>
    let early := ys.takeWhile (·.time < x.time)
    let late := ys.dropWhile (·.time < x.time)
    obtain ⟨hx, hxs⟩ := List.pairwise_cons.mp hxs
    have hearly : ∀ y ∈ early, y.time < x.time := fun y hy => by
      simpa using List.all_eq_true.mp List.all_takeWhile y hy
    have hrest : ∀ z ∈ merge xs late, x.time ≤ z.time := fun z hz =>
      (mem_merge.mp hz).elim (hx z) (le_of_mem_dropWhile hys)
    refine List.pairwise_append.mpr ⟨hys.sublist (List.takeWhile_sublist _), ?_, ?_⟩
    · exact List.pairwise_cons.mpr ⟨hrest, ih hxs (hys.sublist (List.dropWhile_sublist _))⟩
    · intro y hy z hz
      have hxz : x.time ≤ z.time := by
        rcases List.mem_cons.mp hz with rfl | hz
        · exact Nat.le_refl _
        · exact hrest z hz
      exact Nat.le_trans (Nat.le_of_lt (hearly y hy)) hxz

/-- What happens one after another, and never at one time, is merged one after another. -/
theorem pairwise_lt_merge {xs ys : List (Timed α)} (hxs : xs.Pairwise (·.time < ·.time))
    (hys : ys.Pairwise (·.time < ·.time)) (h : ∀ x ∈ xs, ∀ y ∈ ys, x.time ≠ y.time) :
    (merge xs ys).Pairwise (·.time < ·.time) := by
  have hordered := pairwise_merge (hxs.imp Nat.le_of_lt) (hys.imp Nat.le_of_lt)
  have hapart : (merge xs ys).Pairwise (·.time ≠ ·.time) :=
    ((perm_merge xs ys).pairwise_iff Ne.symm).mpr
      (List.pairwise_append.mpr ⟨hxs.imp Nat.ne_of_lt, hys.imp Nat.ne_of_lt, h⟩)
  exact (hordered.and hapart).imp fun h => Nat.lt_of_le_of_ne h.1 h.2

theorem filterMap_merge (f : Timed α → Option β) (xs : List (Timed α)) {ys : List (Timed α)}
    (h : ∀ y ∈ ys, f y = none) : (merge xs ys).filterMap f = xs.filterMap f := by
  induction xs generalizing ys with
  | nil => exact List.filterMap_eq_nil_iff.mpr h
  | cons x xs ih =>
    have hearly : (ys.takeWhile (·.time < x.time)).filterMap f = [] :=
      List.filterMap_eq_nil_iff.mpr fun y hy => h y ((List.takeWhile_sublist _).subset hy)
    have hlate := ih fun y hy => h y ((List.dropWhile_sublist (·.time < x.time)).subset hy)
    rw [merge, List.filterMap_append, hearly, List.nil_append, List.filterMap_cons,
      List.filterMap_cons, hlate]

/-- What comes before an element of a timeline is what happens earlier. -/
theorem filter_of_split {xs past rest : List (Timed α)} {x : Timed α}
    (h : xs.Pairwise (·.time < ·.time)) (hsplit : xs = past ++ x :: rest) :
    xs.filter (·.time < x.time) = past := by
  subst hsplit
  obtain ⟨-, hrest, hpast⟩ := List.pairwise_append.mp h
  have hearlier : past.filter (·.time < x.time) = past :=
    List.filter_eq_self.mpr fun y hy => decide_eq_true (hpast y hy x List.mem_cons_self)
  have hlater : (x :: rest).filter (·.time < x.time) = [] := by
    refine List.filter_eq_nil_iff.mpr fun y hy => ?_
    rw [decide_eq_true_eq, Nat.not_lt]
    rcases List.mem_cons.mp hy with rfl | hy
    · exact Nat.le_refl _
    · exact Nat.le_of_lt (List.rel_of_pairwise_cons hrest hy)
  rw [List.filter_append, hearlier, hlater, List.append_nil]

/-- Each `interval` milliseconds from the start on, up to `last`. -/
def ticks (interval last : Nat) : List Nat :=
  (List.range (last / interval + 1)).map (· * interval)

theorem le_of_mem_ticks {interval last t : Nat} (h : t ∈ ticks interval last) : t ≤ last := by
  simp only [ticks, List.mem_map, List.mem_range] at h
  obtain ⟨n, hn, rfl⟩ := h
  exact Nat.le_trans (Nat.mul_le_mul_right _ (Nat.le_of_lt_succ hn)) (Nat.div_mul_le_self ..)

theorem mem_ticks {interval last n : Nat} (hi : 0 < interval) (h : n * interval ≤ last) :
    n * interval ∈ ticks interval last := by
  simp only [ticks, List.mem_map, List.mem_range]
  exact ⟨n, Nat.lt_succ_of_le ((Nat.le_div_iff_mul_le hi).mpr h), rfl⟩

theorem mem_ticks_iff {interval : Nat} (hi : 0 < interval) (last t : Nat) :
    t ∈ ticks interval last ↔ interval ∣ t ∧ t ≤ last := by
  constructor
  · intro h
    refine ⟨?_, le_of_mem_ticks h⟩
    obtain ⟨n, -, rfl⟩ := List.mem_map.mp h
    exact Nat.dvd_mul_left interval n
  · rintro ⟨⟨n, rfl⟩, h⟩
    rw [Nat.mul_comm] at h ⊢
    exact mem_ticks hi h

theorem pairwise_ticks {interval : Nat} (hi : 0 < interval) (last : Nat) :
    (ticks interval last).Pairwise (· < ·) :=
  List.pairwise_map.mpr (List.pairwise_lt_range.imp fun h => Nat.mul_lt_mul_of_pos_right h hi)

/-- The last happening of each millisecond. -/
def lastOfEach : List (Timed α) → List (Timed α)
  | [] => []
  | x :: xs => match xs with
    | [] => [x]
    | y :: _ => if x.time = y.time then lastOfEach xs else x :: lastOfEach xs

/-- What is seen by who leaves after a silence of `patience` milliseconds. -/
def untilSilence (patience : Nat) : Nat → List (Timed α) → List (Timed α)
  | _, [] => []
  | last, x :: xs =>
    if x.time - last < patience then x :: untilSilence patience x.time xs else []

end Timeline

end StickArbiter
