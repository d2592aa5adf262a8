import StickArbiter.Proofs.Survival

/-!
# In which order files are opened and named

Names are compared as text and a counter may outgrow its four digits, so a file opened later can be
removed as the older one.
-/

namespace StickArbiter

namespace Journal

/-! ## Counters -/

def width (n : Nat) : Nat := max 4 (Nat.toDigits 10 n).length

theorem length_counterText_eq (n : Nat) : (counterText n).length = width n := by
  unfold counterText width
  simp
  omega

/-- The order of counters as text: filled up with zeros on the right, and then the shorter first. -/
def Precedes (m n : Nat) : Prop :=
  m * 10 ^ (width n - width m) < n * 10 ^ (width m - width n) ∨
    m * 10 ^ (width n - width m) = n * 10 ^ (width m - width n) ∧ width m < width n

instance (m n : Nat) : Decidable (Precedes m n) := inferInstanceAs (Decidable (_ ∨ _))

variable {m n : Nat}

theorem precedes_total (m n : Nat) : Precedes m n ∨ m = n ∨ Precedes n m := by
  unfold Precedes
  rcases Nat.lt_trichotomy (m * 10 ^ (width n - width m)) (n * 10 ^ (width m - width n)) with
    hlt | heq | hgt
  · exact Or.inl (Or.inl hlt)
  · rcases Nat.lt_trichotomy (width m) (width n) with hshort | hsame | hlong
    · exact Or.inl (Or.inr ⟨heq, hshort⟩)
    · rw [hsame, Nat.sub_self, Nat.pow_zero, Nat.mul_one, Nat.mul_one] at heq
      exact Or.inr (Or.inl heq)
    · exact Or.inr (Or.inr (Or.inr ⟨heq.symm, hlong⟩))
  · exact Or.inr (Or.inr (Or.inl hgt))

theorem ofDigitChars_take {cs : List Char} (hcs : ∀ c ∈ cs, c.isDigit = true) (k : Nat) :
    Nat.ofDigitChars 10 (cs.take k) 0 * 10 ^ (cs.length - k) ≤ Nat.ofDigitChars 10 cs 0 ∧
      Nat.ofDigitChars 10 cs 0 <
        (Nat.ofDigitChars 10 (cs.take k) 0 + 1) * 10 ^ (cs.length - k) := by
  have hrest : ∀ c ∈ cs.drop k, c.isDigit = true := fun c hc => hcs c (List.mem_of_mem_drop hc)
  have hbounds := ofDigitChars_bounds hrest (Nat.ofDigitChars 10 (cs.take k) 0)
  rwa [← Nat.ofDigitChars_append, List.take_append_drop, List.length_drop] at hbounds

theorem eq_of_ofDigitChars_eq {cs ds : List Char} (hcs : ∀ c ∈ cs, c.isDigit = true)
    (hds : ∀ c ∈ ds, c.isDigit = true) (hlength : cs.length = ds.length)
    (h : Nat.ofDigitChars 10 cs 0 = Nat.ofDigitChars 10 ds 0) : cs = ds := by
  induction cs using List.reverseRecOn generalizing ds with
  | nil => exact (List.eq_nil_of_length_eq_zero hlength.symm).symm
  | append_singleton cs c ih =>
    rcases List.eq_nil_or_concat ds with rfl | ⟨ds, d, rfl⟩
    · simp at hlength
    · rw [List.concat_eq_append] at *
      rw [List.forall_mem_append, List.forall_mem_singleton] at hcs hds
      have hc := digit_bounds hcs.2
      have hd := digit_bounds hds.2
      simp only [Nat.ofDigitChars_append, Nat.ofDigitChars_cons, Nat.ofDigitChars_nil] at h
      have hzero : '0'.toNat = 48 := rfl
      have hlast : c.toNat = d.toNat := by omega
      simp only [List.length_append, List.length_singleton, Nat.add_right_cancel_iff] at hlength
      rw [ih hcs.1 hds.1 hlength (by omega), Char.toNat_inj.mp hlast]

theorem counterText_take (hwidth : width m ≤ width n) :
    (counterText m).length = ((counterText n).take (width m)).length ∧
      ∀ c ∈ (counterText n).take (width m), c.isDigit = true := by
  refine ⟨?_, fun c hc => counterText_digits n c (List.mem_of_mem_take hc)⟩
  rw [List.length_take_of_le (by rwa [length_counterText_eq]), length_counterText_eq]

theorem counterText_lt_of_le (hwidth : width m ≤ width n)
    (hle : m * 10 ^ (width n - width m) ≤ n) (hne : m ≠ n) : counterText m < counterText n := by
  obtain ⟨hlength, hfirst⟩ := counterText_take hwidth
  obtain ⟨-, hless⟩ := ofDigitChars_take (counterText_digits n) (width m)
  rw [ofDigitChars_counterText, length_counterText_eq] at hless
  have hm : m ≤ Nat.ofDigitChars 10 ((counterText n).take (width m)) 0 :=
    Nat.le_of_lt_succ (Nat.lt_of_mul_lt_mul_right (Nat.lt_of_le_of_lt hle hless))
  rw [← List.append_nil (counterText m), ← List.take_append_drop (width m) (counterText n)]
  rcases Nat.lt_or_eq_of_le hm with hlt | heq
  · refine append_lt_append_of_length ?_ hlength _ _
    refine lt_of_ofDigitChars_lt (n := 0) (counterText_digits m) hfirst hlength ?_
    rwa [ofDigitChars_counterText]
  · -- The first digits are the same, so the other counter goes on after them.
    have hsame : counterText m = (counterText n).take (width m) := by
      refine eq_of_ofDigitChars_eq (counterText_digits m) hfirst hlength ?_
      rwa [ofDigitChars_counterText]
    have hmore : (counterText n).drop (width m) ≠ [] := by
      intro hnone
      have hall := List.take_append_drop (width m) (counterText n)
      rw [hnone, List.append_nil, ← hsame] at hall
      refine hne ?_
      rw [← ofDigitChars_counterText m, hall, ofDigitChars_counterText]
    rw [hsame]
    apply List.append_left_lt
    obtain ⟨d, ds, hrest⟩ := List.exists_cons_of_ne_nil hmore
    rw [hrest]
    exact List.nil_lt_cons d ds

theorem counterText_lt_of_lt (hwidth : width n ≤ width m)
    (hlt : m < n * 10 ^ (width m - width n)) : counterText m < counterText n := by
  obtain ⟨hlength, hfirst⟩ := counterText_take hwidth
  obtain ⟨hleast, -⟩ := ofDigitChars_take (counterText_digits m) (width n)
  rw [ofDigitChars_counterText, length_counterText_eq] at hleast
  have hn : Nat.ofDigitChars 10 ((counterText m).take (width n)) 0 < n :=
    Nat.lt_of_mul_lt_mul_right (Nat.lt_of_le_of_lt hleast hlt)
  rw [← List.append_nil (counterText n), ← List.take_append_drop (width n) (counterText m)]
  refine append_lt_append_of_length ?_ hlength.symm _ _
  refine lt_of_ofDigitChars_lt (n := 0) hfirst (counterText_digits n) hlength.symm ?_
  rwa [ofDigitChars_counterText]

theorem counterText_lt_of_precedes (h : Precedes m n) : counterText m < counterText n := by
  unfold Precedes at h
  rcases Nat.le_total (width m) (width n) with hwidth | hwidth
  · rw [Nat.sub_eq_zero_of_le hwidth, Nat.pow_zero, Nat.mul_one] at h
    refine counterText_lt_of_le hwidth (by omega) ?_
    rintro rfl
    rw [Nat.sub_self, Nat.pow_zero, Nat.mul_one] at h
    omega
  · rw [Nat.sub_eq_zero_of_le hwidth, Nat.pow_zero, Nat.mul_one] at h
    exact counterText_lt_of_lt hwidth (by omega)

theorem append_extension_lt {cs ds : List Char} (hds : ∀ c ∈ ds, c.isDigit = true) (h : cs < ds) :
    cs ++ extension < ds ++ extension := by
  by_cases hleads : cs <+: ds
  · obtain ⟨rest, rfl⟩ := hleads
    rw [List.append_assoc]
    apply List.append_left_lt
    rcases rest with _ | ⟨d, rest⟩
    · rw [List.append_nil] at h
      exact absurd h (List.lt_irrefl _)
    · have hd := digit_bounds (hds d (by simp))
      change '.' :: _ < d :: _
      rw [List.cons_lt_cons_iff]
      refine Or.inl ?_
      change 46 < d.toNat
      omega
  · exact append_lt_append h hleads _ _

theorem fileName_lt_of_precedes {s : String} {m n : UInt32} (h : Precedes m.toNat n.toNat) :
    fileName s m < fileName s n :=
  fileName_lt_of_counter s
    (append_extension_lt (counterText_digits _) (counterText_lt_of_precedes h))

/-- Names stand in the order of their seconds, and in one second of their counters as text. -/
theorem fileName_lt_iff {s t : String} (hs : Moment.Dated s) (ht : Moment.Dated t) (m n : UInt32) :
    fileName s m < fileName t n ↔ s < t ∨ s = t ∧ Precedes m.toNat n.toNat := by
  constructor
  · intro hname
    rcases lt_trichotomy s t with hlt | rfl | hgt
    · exact Or.inl hlt
    · rcases precedes_total m.toNat n.toNat with hbefore | hsame | hafter
      · exact Or.inr ⟨rfl, hbefore⟩
      · rw [UInt32.toNat_inj.mp hsame] at hname
        exact absurd hname (lt_irrefl _)
      · exact absurd hname (lt_asymm (fileName_lt_of_precedes hafter))
    · exact absurd hname (lt_asymm (fileName_lt_of_second ht hs hgt n m))
  · rintro (hlt | ⟨rfl, hbefore⟩)
    · exact fileName_lt_of_second hs ht hlt m n
    · exact fileName_lt_of_precedes hbefore

/-- The text of 10000 stands before that of 9999, and behind that of 1000. -/
example : ¬ Precedes 9999 10000 ∧ Precedes 1000 10000 := by decide

/-! ## Runs -/

/-- A file that a run opens, with how often it tried to open one before. -/
structure Opening where
  second : String
  number : Nat
deriving DecidableEq

namespace Opening

/-- The counter holds a number below 2 ^ 32, and then begins again. -/
def name (o : Opening) : String := fileName o.second (UInt32.ofNat o.number)

/-- Whether, of two files of which one is opened later, this one has the later name. -/
def InOrder (o p : Opening) : Prop :=
  o.second = p.second → Precedes (o.number % 2 ^ 32) (p.number % 2 ^ 32)

instance (o p : Opening) : Decidable (o.InOrder p) := inferInstanceAs (Decidable (_ → _))

theorem name_lt_iff {o p : Opening} (ho : Moment.Dated o.second) (hp : Moment.Dated p.second)
    (hle : o.second ≤ p.second) : o.name < p.name ↔ o.InOrder p := by
  unfold name InOrder
  rw [fileName_lt_iff ho hp, UInt32.toNat_ofNat', UInt32.toNat_ofNat']
  constructor
  · rintro (hlt | ⟨-, hbefore⟩) heq
    · exact absurd hlt (heq ▸ lt_irrefl _)
    · exact hbefore
  · intro h
    rcases lt_or_eq_of_le hle with hlt | heq
    · exact Or.inl hlt
    · exact Or.inr ⟨heq, h heq⟩

end Opening

def openings (j : Journal) (calls : List (Moment × Record)) : List Opening :=
  ((j.steps calls).filter (·.1.needsFile)).zipIdx.filterMap fun (s, n) =>
    if (s.1.record s.2.1 s.2.2).fault = none then some ⟨s.2.1.second, n⟩ else none

variable {j : Journal} {calls : List (Moment × Record)} {c : Moment × Record}

theorem openings_concat :
    j.openings (calls ++ [c]) = j.openings calls ++
      if (j.after calls).needsFile = true ∧ ((j.after calls).record c.1 c.2).fault = none then
        [⟨c.1.second, (j.rotations calls).length⟩] else [] := by
  unfold openings rotations
  rw [steps_concat, List.filter_append, List.zipIdx_append, List.filterMap_append,
    List.filter_singleton, List.length_map]
  congr 1
  cases (j.after calls).needsFile with
  | false => simp
  | true =>
    by_cases hfault : ((j.after calls).record c.1 c.2).fault = none <;> simp [hfault]

theorem counter_write (j : Journal) (line : String) : (j.write line).counter = j.counter := by
  unfold Journal.write
  split <;> rfl

theorem record_spec (j : Journal) (now : Moment) (r : Record) :
    (j.record now r).journal.counter = (if j.needsFile then j.counter + 1 else j.counter) ∧
      (j.record now r).opened =
        if j.needsFile = true ∧ (j.record now r).fault = none then
          [fileName now.second j.counter] else [] := by
  obtain ⟨hneeds, hrecord⟩ | ⟨hneeds, ⟨f, -, hrecord⟩ | ⟨g, -, hrecord⟩⟩ := j.record_outcome now r
  · rw [hrecord, hneeds]
    exact ⟨j.counter_write _, rfl⟩
  · rw [hrecord, hneeds]
    exact ⟨rfl, by simp [Recorded.opened]⟩
  · rw [hrecord, hneeds]
    exact ⟨counter_write _ _, by simp [Recorded.opened]⟩

theorem counter_after (j : Journal) (calls : List (Moment × Record)) :
    (j.after calls).counter = j.counter + UInt32.ofNat (j.rotations calls).length := by
  induction calls using List.reverseRecOn with
  | nil => simp [after, rotations, steps]
  | append_singleton calls c ih =>
    rw [after_concat, (record_spec _ _ _).1, rotations_concat, ih]
    split
    · rw [List.length_append, List.length_singleton, UInt32.ofNat_add, UInt32.add_assoc]
      rfl
    · rw [List.append_nil]

theorem opened_eq (folder : Folder) (recordsPerFile filesKept : Nat)
    (calls : List (Moment × Record)) :
    let start := create folder recordsPerFile filesKept
    start.opened calls = (start.openings calls).map Opening.name := by
  intro start
  induction calls using List.reverseRecOn with
  | nil => rfl
  | append_singleton calls c ih =>
    have hcounter := start.counter_after calls
    rw [opened_concat, openings_concat, List.map_append, ih, (record_spec _ _ _).2, hcounter]
    congr 1
    split
    · simp [Opening.name, start, create]
    · rfl

theorem openings_seconds (j : Journal) (calls : List (Moment × Record)) :
    ((j.openings calls).map Opening.second).Sublist (j.rotations calls) := by
  induction calls using List.reverseRecOn with
  | nil => exact List.Sublist.refl _
  | append_singleton calls c ih =>
    rw [openings_concat, rotations_concat, List.map_append]
    refine ih.append ?_
    cases (j.after calls).needsFile with
    | false => simp
    | true => split <;> simp

/-- The files that are left have the last names of those that were opened. -/
theorem left_of_lt {folder : Folder} {opened : List String} {a b : String}
    (h : Holds folder j opened) (ha : a ∈ filesIn j.folder) (hb : b ∈ opened) (hab : a < b) :
    b ∈ filesIn j.folder := by
  have hfiles := h.files
  rw [if_neg (List.ne_nil_of_mem hb)] at hfiles
  rw [← List.mem_toFinset, hfiles] at ha ⊢
  exact mem_newest_of_lt ha (List.mem_toFinset.mpr (List.mem_append_right _ hb)) hab

/-- Of two files of a run the one opened later has the later name exactly if its second is later or
its number stands later as text. Those opened first are removed first exactly as far as the names
are in order. -/
theorem name_order (folder : Folder) (hproper : folder.Proper) (recordsPerFile filesKept : Nat)
    (calls : List (Moment × Record))
    (hdated : ∀ second ∈ (create folder recordsPerFile filesKept).rotations calls,
      Moment.Dated second)
    (hordered : ((create folder recordsPerFile filesKept).rotations calls).Pairwise (· ≤ ·)) :
    let start := create folder recordsPerFile filesKept
    let opened := start.opened calls
    let openings := start.openings calls
    let files := filesIn (start.after calls).folder
    opened = openings.map Opening.name ∧
    openings.Pairwise (fun o p => o.name < p.name ↔ o.InOrder p) ∧
    (opened.Pairwise (· < ·) ↔ openings.Pairwise Opening.InOrder) ∧
    ∀ a ∈ files, ∀ b ∈ opened, a < b → b ∈ files := by
  intro start opened openings files
  have hnames : opened = openings.map Opening.name :=
    opened_eq folder recordsPerFile filesKept calls
  have hseconds := start.openings_seconds calls
  have hdates : ∀ o ∈ openings, Moment.Dated o.second := fun o ho =>
    hdated _ (hseconds.subset (List.mem_map_of_mem ho))
  have hpairs : openings.Pairwise fun o p => o.name < p.name ↔ o.InOrder p := by
    refine (List.pairwise_map.mp (hordered.sublist hseconds)).imp_of_mem ?_
    intro o p ho hp hle
    exact Opening.name_lt_iff (hdates o ho) (hdates p hp) hle
  refine ⟨hnames, hpairs, ?_, fun a ha b hb hab => ?_⟩
  · rw [hnames, List.pairwise_map]
    exact ⟨fun h => (h.and hpairs).imp fun ⟨hlt, hiff⟩ => hiff.mp hlt,
      fun h => (h.and hpairs).imp fun ⟨hin, hiff⟩ => hiff.mpr hin⟩
  · exact left_of_lt (holds_after hproper recordsPerFile filesKept calls) ha hb hab

/-- All five are in order, so the files that are left are the ones opened last. -/
theorem name_order_fiveCalls :
    let start := create withNote 2 2
    (start.opened fiveCalls).Pairwise (· < ·) ∧
      ∀ a ∈ filesIn (start.after fiveCalls).folder, ∀ b ∈ start.opened fiveCalls,
        a < b → b ∈ filesIn (start.after fiveCalls).folder := by
  intro start
  have hproper : withNote.Proper := by
    unfold Folder.Proper
    decide
  have hdated : ∀ second ∈ start.rotations fiveCalls, Moment.Dated second := by
    refine dated_rotations ?_
    unfold fiveCalls
    simp only [List.forall_mem_map]
    exact fun n _ => ⟨n, rfl⟩
  obtain ⟨-, -, hiff, hleft⟩ :=
    name_order withNote hproper 2 2 fiveCalls hdated (by decide +kernel)
  exact ⟨hiff.mpr (by decide +kernel), hleft⟩

end Journal

/-! ## A file for every record -/

def Folder.Plain (f : Folder) : Prop :=
  ∃ es, f.entries = some es ∧ ∀ e ∈ es, e.2 ≠ .folder

namespace Folder.Plain

variable {f : Folder}

theorem create (h : f.Plain) (name : String) : ∃ g, f.create name = .ok g ∧ g.Plain := by
  obtain ⟨es, hentries, hfiles⟩ := h
  cases hlookup : es.lookup name with
  | none =>
    refine ⟨⟨some (es ++ [(name, .file [])])⟩, ?_, _, rfl, ?_⟩
    · simp [Folder.create, hentries, hlookup]
    · rw [List.forall_mem_append, List.forall_mem_singleton]
      exact ⟨hfiles, nofun⟩
  | some e =>
    cases e with
    | file lines => exact ⟨f, by simp [Folder.create, hentries, hlookup], es, hentries, hfiles⟩
    | folder =>
      obtain ⟨l₁, l₂, rfl, -⟩ := List.lookup_eq_some_iff.mp hlookup
      exact absurd rfl (hfiles (name, .folder) (by simp))

theorem append (h : f.Plain) (name line : String) : (f.append name line).Plain := by
  obtain ⟨es, hentries, hfiles⟩ := h
  obtain rfl : f = ⟨some es⟩ := by rw [← hentries]
  rw [append_eq]
  refine ⟨_, rfl, ?_⟩
  rw [List.forall_mem_map]
  rintro ⟨n, e⟩ he
  cases e with
  | folder => exact absurd rfl (hfiles _ he)
  | file lines =>
    change (if n = name then Entry.file (lines ++ [line]) else .file lines) ≠ .folder
    split <;> exact nofun

theorem remove_all (h : f.Plain) (names : List String) : (names.foldl remove f).Plain := by
  obtain ⟨es, hentries, hfiles⟩ := h
  obtain rfl : f = ⟨some es⟩ := by rw [← hentries]
  rw [Folder.remove_all]
  exact ⟨_, rfl, fun e he => hfiles e (List.mem_of_mem_filter he)⟩

end Folder.Plain

namespace Journal

variable {j : Journal} {folder : Folder} {calls : List (Moment × Record)}

theorem plain_write (h : j.folder.Plain) (line : String) : (j.write line).folder.Plain := by
  unfold Journal.write
  split
  next => exact h
  next name _ => exact h.append name line

theorem plain_record (h : j.folder.Plain) (now : Moment) (r : Record) :
    (j.record now r).fault = none ∧ (j.record now r).journal.folder.Plain := by
  obtain ⟨g, hcreate, hplain⟩ := h.create (fileName now.second j.counter)
  obtain ⟨-, hrecord⟩ | ⟨-, ⟨f, hfails, -⟩ | ⟨g', hcreate', hrecord⟩⟩ := j.record_outcome now r
  · rw [hrecord]
    exact ⟨rfl, plain_write h _⟩
  · cases hcreate.symm.trans hfails
  · obtain rfl : g = g' := Except.ok.inj (hcreate.symm.trans hcreate')
    rw [hrecord]
    exact ⟨rfl, plain_write (hplain.remove_all _) _⟩

theorem plain_after (h : j.folder.Plain) (calls : List (Moment × Record)) :
    (j.after calls).folder.Plain := by
  induction calls using List.reverseRecOn with
  | nil => exact h
  | append_singleton calls c ih =>
    rw [after_concat]
    exact (plain_record ih c.1 c.2).2

theorem needsFile_after (folder : Folder) (filesKept : Nat) (calls : List (Moment × Record)) :
    ((create folder 1 filesKept).after calls).needsFile = true := by
  induction calls using List.reverseRecOn with
  | nil => rfl
  | append_singleton calls c ih =>
    obtain ⟨hlimit, -⟩ := (create folder 1 filesKept).limits_after (calls ++ [c])
    have hone : (create folder 1 filesKept).recordsPerFile = 1 := rfl
    rw [after_concat] at hlimit ⊢
    obtain ⟨-, -, hjournal⟩ | ⟨name, k, hjournal, hcurrent, -⟩ :=
      record_cases ((create folder 1 filesKept).after calls) c.1 c.2
    · rw [hjournal]
      exact ih
    · have hwritten : (k.write (c.2.line c.1.text)).written = k.written + 1 := by
        unfold Journal.write
        rw [hcurrent]
      unfold needsFile
      rw [hlimit, hone, hjournal, hwritten]
      simp

theorem openings_replicate (h : folder.Plain) (filesKept n : Nat) (c : Moment × Record) :
    let start := create folder 1 filesKept
    start.rotations (List.replicate n c) = List.replicate n c.1.second ∧
      start.openings (List.replicate n c) = (List.range n).map (Opening.mk c.1.second) := by
  intro start
  induction n with
  | zero => exact ⟨rfl, rfl⟩
  | succ n ih =>
    obtain ⟨hrotations, hopenings⟩ := ih
    have hneeds := needsFile_after folder filesKept (List.replicate n c)
    have hfault := (plain_record (plain_after (j := start) h (List.replicate n c)) c.1 c.2).1
    rw [List.replicate_succ', rotations_concat, openings_concat, hrotations, hopenings,
      if_pos hneeds, if_pos ⟨hneeds, hfault⟩]
    simp [List.replicate_succ', List.range_succ]

def crowdedSecond : List (Moment × Record) := List.replicate 10001 armCall

/-- The last file does not have the last name. -/
theorem names_not_always_in_order :
    ¬ ∀ (folder : Folder) (recordsPerFile filesKept : Nat) (calls : List (Moment × Record)),
      folder.Proper →
      (∀ second ∈ (create folder recordsPerFile filesKept).rotations calls,
        Moment.Dated second) →
      ((create folder recordsPerFile filesKept).rotations calls).Pairwise (· ≤ ·) →
      ((create folder recordsPerFile filesKept).opened calls).Pairwise (· < ·) := by
  intro hall
  have hplain : Folder.empty.Plain := ⟨[], rfl, nofun⟩
  obtain ⟨hrotations, hopenings⟩ := openings_replicate hplain 1 10001 armCall
  have h := hall Folder.empty 1 1 crowdedSecond .nil ?_ ?_
  · rw [opened_eq, crowdedSecond, hopenings, List.pairwise_map, List.pairwise_map,
      List.range_succ, List.range_succ, List.append_assoc] at h
    have hlast := List.pairwise_pair.mp (List.pairwise_append.mp h).2.1
    exact absurd hlast (by decide +kernel)
  · refine dated_rotations fun c hc => ?_
    rw [List.eq_of_mem_replicate hc]
    exact ⟨999000, rfl⟩
  · rw [crowdedSecond, hrotations]
    exact List.pairwise_replicate.mpr (Or.inr (le_refl _))

end Journal

end StickArbiter
