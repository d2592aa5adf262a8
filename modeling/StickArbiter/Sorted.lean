/-!
# Sorted lists

A list is sorted by putting its elements one after another into their places. The result holds the
same elements, and each may stand before those that follow it.
-/

namespace StickArbiter.Sorted

/-- Puts an element before the first one that it may precede. -/
def insert (le : α → α → Bool) (a : α) : List α → List α
  | [] => [a]
  | b :: bs => if le a b then a :: b :: bs else b :: insert le a bs

/-- The elements of a list in order; equal ones keep their order. -/
def ofList (le : α → α → Bool) : List α → List α
  | [] => []
  | a :: as => insert le a (ofList le as)

theorem perm_insert (le : α → α → Bool) (a : α) (xs : List α) :
    (insert le a xs).Perm (a :: xs) := by
  induction xs with
  | nil => exact .refl _
  | cons b bs ih =>
    rw [insert]
    split
    · exact .refl _
    · exact (ih.cons b).trans (.swap a b bs)

/-- Nothing is lost and nothing is added. -/
theorem perm_ofList (le : α → α → Bool) (xs : List α) : (ofList le xs).Perm xs := by
  induction xs with
  | nil => exact .refl _
  | cons a as ih => exact (perm_insert le a _).trans (ih.cons a)

@[simp]
theorem mem_ofList {le : α → α → Bool} {xs : List α} {a : α} : a ∈ ofList le xs ↔ a ∈ xs :=
  (perm_ofList le xs).mem_iff

theorem pairwise_insert {le : α → α → Bool} (total : ∀ a b, le a b = true ∨ le b a = true)
    (trans : ∀ a b c, le a b = true → le b c = true → le a c = true) (a : α) {xs : List α}
    (h : xs.Pairwise (le · · = true)) : (insert le a xs).Pairwise (le · · = true) := by
  induction xs with
  | nil => simp [insert]
  | cons b bs ih =>
    obtain ⟨first, rest⟩ := List.pairwise_cons.1 h
    rw [insert]
    split
    · rename_i hab
      refine List.pairwise_cons.2 ⟨fun c hc => ?_, h⟩
      rcases List.mem_cons.1 hc with rfl | hc
      · exact hab
      · exact trans a b c hab (first c hc)
    · rename_i hab
      refine List.pairwise_cons.2 ⟨fun c hc => ?_, ih rest⟩
      rcases List.mem_cons.1 ((perm_insert le a bs).mem_iff.1 hc) with rfl | hc
      · exact (total b c).resolve_right hab
      · exact first c hc

/-- Each element may stand before those that follow it. -/
theorem pairwise_ofList {le : α → α → Bool} (total : ∀ a b, le a b = true ∨ le b a = true)
    (trans : ∀ a b c, le a b = true → le b c = true → le a c = true) (xs : List α) :
    (ofList le xs).Pairwise (le · · = true) := by
  induction xs with
  | nil => exact .nil
  | cons a as ih => exact pairwise_insert total trans a ih

/-- A list in order is left as it is. -/
theorem ofList_of_pairwise {le : α → α → Bool} {xs : List α} (h : xs.Pairwise (le · · = true)) :
    ofList le xs = xs := by
  induction xs with
  | nil => rfl
  | cons a as ih =>
    obtain ⟨first, rest⟩ := List.pairwise_cons.1 h
    rw [ofList, ih rest]
    cases as with
    | nil => rfl
    | cons b bs => rw [insert, if_pos (first b List.mem_cons_self)]

/-- The first element that passes a test in the sorted list is the least one that does. -/
theorem find?_ofList_eq_some_iff {le : α → α → Bool} (total : ∀ a b, le a b = true ∨ le b a = true)
    (trans : ∀ a b c, le a b = true → le b c = true → le a c = true) {xs : List α}
    (antisymm : ∀ a ∈ xs, ∀ b ∈ xs, le a b = true → le b a = true → a = b)
    (p : α → Bool) (a : α) :
    (ofList le xs).find? p = some a ↔
      a ∈ xs ∧ p a = true ∧ ∀ b ∈ xs, p b = true → le a b = true := by
  have hleast : ∀ c, (ofList le xs).find? p = some c →
      c ∈ xs ∧ p c = true ∧ ∀ b ∈ xs, p b = true → le c b = true := by
    intro c hfind
    obtain ⟨hc, before, after, hsplit, hbefore⟩ := List.find?_eq_some_iff_append.mp hfind
    have hordered := pairwise_ofList total trans xs
    rw [hsplit] at hordered
    refine ⟨mem_ofList.mp (List.mem_of_find?_eq_some hfind), hc, fun b hb hpass => ?_⟩
    have hsorted : b ∈ ofList le xs := mem_ofList.mpr hb
    rw [hsplit, List.mem_append] at hsorted
    -- What stands before the first that passes does not pass; what follows it is no less.
    rcases hsorted with hb | hb
    · have hfails := hbefore b hb
      rw [hpass] at hfails
      cases hfails
    · rcases List.mem_cons.mp hb with rfl | hb
      · exact (total b b).elim id id
      · exact List.rel_of_pairwise_cons (List.pairwise_append.mp hordered).2.1 hb
  refine ⟨hleast a, fun ⟨ha, hpass, hall⟩ => ?_⟩
  have hsome : ((ofList le xs).find? p).isSome = true :=
    List.find?_isSome.mpr ⟨a, mem_ofList.mpr ha, hpass⟩
  obtain ⟨c, hfind⟩ := Option.isSome_iff_exists.mp hsome
  obtain ⟨hc, hpassc, hallc⟩ := hleast c hfind
  rw [hfind, antisymm a ha c hc (hall c hc hpassc) (hallc a ha hpass)]

end StickArbiter.Sorted
