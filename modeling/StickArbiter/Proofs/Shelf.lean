import StickArbiter.Proofs.FileNames

/-!
# A folder with files of the journal

The journal's files in a folder are told by a list of names and lines in the order of the names,
behind whatever else is there.
-/

namespace StickArbiter

structure Volume where
  name : String
  lines : List String := []
deriving DecidableEq

def Volume.entry (v : Volume) : String × Entry := (v.name, .file v.lines)

def Volume.add (v : Volume) (line : String) : Volume := { v with lines := v.lines ++ [line] }

namespace Folder

def isForeign (e : String × Entry) : Bool :=
  match e.2 with
  | .folder => true
  | .file _ => !Journal.ownsName e.1

def foreign (f : Folder) : List (String × Entry) := f.held.filter isForeign

def linesOf (f : Folder) (name : String) : List String :=
  match f.entry? name with
  | some (.file lines) => lines
  | _ => []

def shelving (base : List (String × Entry)) (vs : List Volume) : Folder :=
  ⟨some (base ++ vs.map Volume.entry)⟩

theorem nameBefore_iff {a b : String} : nameBefore a b = true ↔ a ≤ b := by
  unfold nameBefore
  rw [decide_eq_true_eq]
  rfl

theorem remove_all (es : List (String × Entry)) (names : List String) :
    names.foldl remove ⟨some es⟩ = ⟨some (es.filter (·.1 ∉ names))⟩ := by
  induction names generalizing es with
  | nil =>
    rw [List.filter_eq_self.mpr (by simp)]
    rfl
  | cons name names ih =>
    have hstep : remove ⟨some es⟩ name = ⟨some (es.filter (·.1 ≠ name))⟩ := rfl
    rw [List.foldl_cons, hstep, ih, List.filter_filter]
    simp only [List.mem_cons, not_or, Bool.decide_and, Bool.and_comm]

theorem foreign_of_filesIn {f : Folder} (h : Journal.filesIn f = []) :
    ∀ e ∈ f.held, isForeign e = true := by
  rintro ⟨name, e⟩ he
  cases e with
  | folder => rfl
  | file lines =>
    cases howned : Journal.ownsName name with
    | false => simp [isForeign, howned]
    | true =>
      have hmem : name ∈ Journal.filesIn f := by
        unfold Journal.filesIn fileNames
        rw [Sorted.mem_ofList, List.mem_filter, List.mem_filterMap]
        exact ⟨⟨(name, .file lines), he, rfl⟩, howned⟩
      rw [h] at hmem
      cases hmem

/-- Other entries, and files of the journal that stand apart from them in the order of names. -/
structure Shelf (base : List (String × Entry)) (vs : List Volume) : Prop where
  others : ∀ e ∈ base, isForeign e = true
  owned : ∀ v ∈ vs, Journal.ownsName v.name = true
  apart : ∀ v ∈ vs, ∀ e ∈ base, e.1 ≠ v.name
  ordered : (vs.map Volume.name).Pairwise (· < ·)

variable {base : List (String × Entry)} {vs : List Volume} {v : Volume} {name line : String}

theorem Shelf.drop (h : Shelf base vs) (k : Nat) : Shelf base (vs.drop k) := by
  refine ⟨h.others, fun v hv => h.owned v (List.mem_of_mem_drop hv),
    fun v hv => h.apart v (List.mem_of_mem_drop hv), ?_⟩
  rw [List.map_drop]
  exact h.ordered.drop

theorem Shelf.nodup (h : Shelf base vs) : (vs.map Volume.name).Nodup :=
  h.ordered.imp String.ne_of_lt

theorem Shelf.filesIn (h : Shelf base vs) :
    Journal.filesIn (shelving base vs) = vs.map Volume.name := by
  have hothers : (fileNames ⟨some base⟩).filter Journal.ownsName = [] := by
    rw [List.filter_eq_nil_iff]
    intro name hname
    obtain ⟨⟨n, e⟩, he, hfile⟩ := List.mem_filterMap.mp hname
    cases e with
    | folder => cases hfile
    | file lines =>
      cases hfile
      simpa [isForeign] using h.others _ he
  have hfiles : (shelving base vs).fileNames = fileNames ⟨some base⟩ ++ vs.map Volume.name := by
    unfold fileNames shelving held
    rw [Option.getD_some, Option.getD_some, List.filterMap_append, List.filterMap_map]
    congr 1
    exact congrFun List.filterMap_eq_map vs
  have howned : (vs.map Volume.name).filter Journal.ownsName = vs.map Volume.name := by
    rw [List.filter_eq_self, List.forall_mem_map]
    exact h.owned
  unfold Journal.filesIn
  rw [hfiles, List.filter_append, hothers, howned, List.nil_append]
  refine Sorted.ofList_of_pairwise (h.ordered.imp fun hlt => nameBefore_iff.mpr ?_)
  exact Std.le_of_lt hlt

theorem Shelf.foreign (h : Shelf base vs) : (shelving base vs).foreign = base := by
  have hothers : base.filter isForeign = base := List.filter_eq_self.mpr h.others
  have howned : (vs.map Volume.entry).filter isForeign = [] := by
    rw [List.filter_eq_nil_iff, List.forall_mem_map]
    intro v hv
    simp [Volume.entry, isForeign, h.owned v hv]
  unfold Folder.foreign shelving held
  rw [Option.getD_some, List.filter_append, hothers, howned, List.append_nil]

theorem lookup_entry (hnodup : (vs.map Volume.name).Nodup) (hv : v ∈ vs) :
    (vs.map Volume.entry).lookup v.name = some (.file v.lines) := by
  induction vs with
  | nil => cases hv
  | cons w vs ih =>
    rw [List.map_cons, List.nodup_cons] at hnodup
    rw [List.map_cons, Volume.entry, List.lookup_cons]
    rcases List.mem_cons.mp hv with rfl | hv
    · rw [beq_self_eq_true]
    · have hne : v.name ≠ w.name := by
        intro heq
        exact hnodup.1 (heq ▸ List.mem_map_of_mem hv)
      rw [beq_eq_false_iff_ne.mpr hne]
      exact ih hnodup.2 hv

theorem Shelf.linesOf (h : Shelf base vs) (hv : v ∈ vs) :
    (shelving base vs).linesOf v.name = v.lines := by
  have hbase : base.lookup v.name = none := by
    rw [List.lookup_eq_none_iff]
    intro e he
    exact bne_iff_ne.mpr (h.apart v hv e he).symm
  unfold Folder.linesOf entry? shelving held
  rw [Option.getD_some, List.lookup_append, hbase, lookup_entry h.nodup hv]
  rfl

/-! ## Changes -/

theorem Shelf.concat (h : Shelf base vs) (howned : Journal.ownsName v.name = true)
    (hapart : ∀ e ∈ base, e.1 ≠ v.name) (hlater : ∀ w ∈ vs, w.name < v.name) :
    Shelf base (vs ++ [v]) := by
  refine ⟨h.others, ?_, ?_, ?_⟩
  · simp only [List.forall_mem_append, List.forall_mem_singleton]
    exact ⟨h.owned, howned⟩
  · simp only [List.forall_mem_append, List.forall_mem_singleton]
    exact ⟨h.apart, hapart⟩
  · rw [List.map_append, List.pairwise_append]
    refine ⟨h.ordered, List.pairwise_singleton _ _, ?_⟩
    simpa using hlater

theorem Shelf.create (h : Shelf base vs) {f : Folder} (howned : Journal.ownsName name = true)
    (hlater : ∀ v ∈ vs, v.name < name) (hcreate : (shelving base vs).create name = .ok f) :
    f = shelving base (vs ++ [{ name := name }]) ∧ ∀ e ∈ base, e.1 ≠ name := by
  unfold Folder.create at hcreate
  simp only [shelving] at hcreate
  split at hcreate
  next hnone =>
    cases hcreate
    rw [List.lookup_eq_none_iff, List.forall_mem_append] at hnone
    exact ⟨by simp [shelving, Volume.entry], fun e he => (bne_iff_ne.mp (hnone.1 e he)).symm⟩
  next lines hfile =>
    obtain ⟨es, es', hsplit, -⟩ := List.lookup_eq_some_iff.mp hfile
    have hmem : (name, Entry.file lines) ∈ base ++ vs.map Volume.entry := by
      rw [hsplit]
      simp
    rcases List.mem_append.mp hmem with hbase | hshelf
    · have hforeign := h.others _ hbase
      simp [isForeign, howned] at hforeign
    · obtain ⟨v, hv, heq⟩ := List.mem_map.mp hshelf
      exact absurd (congrArg Prod.fst heq) (String.ne_of_lt (hlater v hv))
  next => cases hcreate

theorem Shelf.remove_take (h : Shelf base vs) (k : Nat) :
    ((vs.map Volume.name).take k).foldl Folder.remove (shelving base vs) =
      shelving base (vs.drop k) := by
  have hothers : base.filter (·.1 ∉ (vs.map Volume.name).take k) = base := by
    rw [List.filter_eq_self]
    intro e he
    rw [decide_eq_true_eq]
    intro hmem
    obtain ⟨v, hv, heq⟩ := List.mem_map.mp (List.mem_of_mem_take hmem)
    exact h.apart v hv e he heq.symm
  have hfirst : ((vs.take k).map Volume.entry).filter (·.1 ∉ (vs.map Volume.name).take k) = [] := by
    rw [List.filter_eq_nil_iff, List.forall_mem_map]
    intro v hv
    rw [← List.map_take]
    simpa [Volume.entry] using List.mem_map_of_mem hv
  have hrest : ((vs.drop k).map Volume.entry).filter (·.1 ∉ (vs.map Volume.name).take k) =
      (vs.drop k).map Volume.entry := by
    rw [List.filter_eq_self, List.forall_mem_map]
    intro v hv
    rw [decide_eq_true_eq]
    intro hmem
    have hdisjoint := h.nodup
    rw [← List.take_append_drop k (vs.map Volume.name), List.nodup_append] at hdisjoint
    refine hdisjoint.2.2 v.name hmem v.name ?_ rfl
    rw [← List.map_drop]
    exact List.mem_map_of_mem hv
  have hsplit : vs.map Volume.entry =
      (vs.take k).map Volume.entry ++ (vs.drop k).map Volume.entry := by
    rw [← List.map_append, List.take_append_drop]
  unfold shelving
  rw [remove_all, List.filter_append, hothers, hsplit, List.filter_append, hfirst, hrest,
    List.nil_append]

def extended (name line : String) (e : String × Entry) : String × Entry :=
  (e.1, match e.2 with
    | .file lines => if e.1 = name then .file (lines ++ [line]) else e.2
    | .folder => e.2)

theorem append_eq (es : List (String × Entry)) (name line : String) :
    append ⟨some es⟩ name line = ⟨some (es.map (extended name line))⟩ := by
  unfold append
  rw [Option.map_some]
  rfl

theorem extended_of_ne {e : String × Entry} (h : e.1 ≠ name) : extended name line e = e := by
  obtain ⟨n, e⟩ := e
  cases e with
  | folder => rfl
  | file lines => exact congrArg (n, ·) (if_neg h)

theorem extended_entry (v : Volume) (line : String) :
    extended v.name line v.entry = (v.add line).entry :=
  congrArg (v.name, ·) (if_pos rfl)

theorem Shelf.append (h : Shelf base (vs ++ [v])) (line : String) :
    (shelving base (vs ++ [v])).append v.name line = shelving base (vs ++ [v.add line]) := by
  have hothers : base.map (extended v.name line) = base := by
    refine (List.map_congr_left fun e he => ?_).trans (List.map_id base)
    exact extended_of_ne (h.apart v (by simp) e he)
  have hearlier : (vs.map Volume.entry).map (extended v.name line) = vs.map Volume.entry := by
    rw [List.map_map]
    refine List.map_congr_left fun w hw => extended_of_ne ?_
    have hordered := h.ordered
    rw [List.map_append, List.pairwise_append] at hordered
    exact String.ne_of_lt (hordered.2.2 _ (List.mem_map_of_mem hw) _ (by simp))
  unfold shelving
  rw [append_eq, List.map_append, hothers, List.map_append, List.map_append, hearlier,
    List.map_append]
  simp only [List.map_cons, List.map_nil, extended_entry]

theorem Shelf.add (h : Shelf base (vs ++ [v])) (line : String) :
    Shelf base (vs ++ [v.add line]) := by
  have hnames : (vs ++ [v.add line]).map Volume.name = (vs ++ [v]).map Volume.name := by
    simp [Volume.add]
  refine ⟨h.others, ?_, ?_, hnames ▸ h.ordered⟩
  · simp only [List.forall_mem_append, List.forall_mem_singleton]
    exact ⟨fun w hw => h.owned w (by simp [hw]), h.owned v (by simp)⟩
  · simp only [List.forall_mem_append, List.forall_mem_singleton]
    exact ⟨fun w hw => h.apart w (by simp [hw]), h.apart v (by simp)⟩

end Folder

end StickArbiter
