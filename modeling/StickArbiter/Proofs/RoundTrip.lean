import StickArbiter.Proofs.Numerals
import StickArbiter.Proofs.Records
import StickArbiter.Wire.Text

/-!
# What is written is read back

A record is read back from its text, in whatever order its members stand, if each of its numbers is.
-/

namespace StickArbiter

open Json Json.Reader

def Axes.numbers (a : Axes) : List Float32 := [a.x, a.y, a.z, a.r]

namespace Wire

/-! ## Values -/

theorem takes_instant (t : Instant) : Takes instant t.wireText t := by
  have hlt : t.micros < wordLimit := t.micros_lt
  have htime : Instant.ofMicros t.micros = t :=
    Instant.ext (Instant.micros_ofMicros_of_lt t.micros_lt)
  have h := (takes_naturalBelow hlt (by decide) "u64").bind_pure Instant.ofMicros
  rwa [htime] at h

theorem takes_source (s : Source) : Takes source s.wireText s := by
  cases s with
  | mavlink channel => exact takes_carrying rfl ((takes_byte channel).bind_pure Source.mavlink)
  | unknown => exact takes_bare rfl
  | rc => exact takes_bare rfl
  | joystick => exact takes_bare rfl
  | simulator => exact takes_bare rfl

theorem takes_position (p : Position) : Takes position p.wireText p := by
  cases p <;> exact takes_bare rfl

theorem takes_mode (m : Mode) : Takes mode m.wireText m := by
  cases m <;> exact takes_bare rfl

theorem takes_slot {n : Option Nat} (hn : ∀ k, n = some k → k < wordLimit) :
    Takes slot (optionalText naturalText n) n := by
  intro rest hrest
  cases n with
  | none =>
    exact (bind_ok (peekPastBlanks_cons (by decide) _)).trans (bind_ok (scalar_null rest))
  | some k =>
    have hread := takes_naturalBelow (hn k rfl) (by decide) "usize" rest hrest
    obtain ⟨c, cs, htext, hc⟩ := naturalText_eq_cons k
    have hne : c ≠ 'n' := by
      rintro rfl
      cases hc
    change optional _ (naturalText k ++ rest) = _
    rw [htext] at hread ⊢
    rw [Reader.optional, List.cons_append, bind_ok (peekPastBlanks_cons (isBlank_of_isDigit hc) _),
      if_neg (by simpa using hne)]
    exact bind_ok hread

/-! ## Members -/

variable {σ α : Type} {draft : List String → σ} {name : String} {get : σ → Option α}
  {r : Reader α} {put : σ → α → σ} {a : α}

theorem extends_field (hget : ∀ names, get (draft names) = given names name a)
    (hput : ∀ names, put (draft names) a = draft (names ++ [name])) :
    Extends draft (field name get r put) fun d => put d a := by
  refine ⟨fun names => ?_, hput⟩
  change (get (draft names)).isSome = _
  rw [hget, isSome_given]
  rfl

theorem fills_field {text : List Char} (hr : Takes r text a)
    (hget : ∀ names, get (draft names) = given names name a)
    (hput : ∀ names, put (draft names) a = draft (names ++ [name])) :
    Fills draft (field name get r put) text :=
  ⟨_, hr.bind_pure _, extends_field hget hput⟩

/-- The texts fill the members of a record one by one. -/
def Lists (s : Shape σ α) (draft : List String → σ) (fields : List MemberText) : Prop :=
  List.Forall₂ (fun mem m => mem.name = m.1 ∧ Fills draft mem m.2) s.members fields

theorem Lists.names {s : Shape σ α} {fields : List MemberText} (h : Lists s draft fields) :
    fields.map Prod.fst = s.names := by
  unfold Lists at h
  unfold Shape.names
  generalize s.members = members at h
  induction h with
  | nil => rfl
  | cons hfirst _ ih => rw [List.map_cons, List.map_cons, hfirst.1, ih]

theorem Lists.fills {s : Shape σ α} {fields : List MemberText} (h : Lists s draft fields) :
    ∀ m ∈ fields, ∃ mem ∈ s.members, mem.name = m.1 ∧ Fills draft mem m.2 := by
  unfold Lists at h
  generalize s.members = members at h
  induction h with
  | nil => exact nofun
  | cons hfirst _ ih =>
    rw [List.forall_mem_cons]
    refine ⟨⟨_, List.mem_cons_self, hfirst⟩, fun m hm => ?_⟩
    obtain ⟨mem, hmem, hfills⟩ := ih m hm
    exact ⟨mem, List.mem_cons_of_mem _ hmem, hfills⟩

theorem given_of_names {s : Shape σ α} {names : List String} (h : ∀ k ∈ s.names, k ∈ names)
    {β : Type} {k : String} (hk : k ∈ s.names) (b : β) : given names k b = some b :=
  if_pos (h k hk)

end Wire

/-! ## Rearranged members -/

/-- Members in any order, without some that may be left out, and with others. -/
def Rearranges (own : List MemberText) (omitted : List String) (ms : List MemberText) : Prop :=
  ∃ others : List (String × Filler), (∀ o ∈ others, o.1 ∉ own.map Prod.fst) ∧
    ms.Perm (own.filter (·.1 ∉ omitted) ++ others.map fun o => (o.1, o.2.wireText))

namespace Rearranges

variable {own ms : List MemberText} {omitted : List String}

theorem self (own : List MemberText) : Rearranges own [] own :=
  ⟨[], nofun, by simp⟩

theorem of_perm {own' : List MemberText} (h : Rearranges own omitted ms) (hown : own.Perm own') :
    Rearranges own' omitted ms := by
  obtain ⟨others, hothers, hms⟩ := h
  refine ⟨others, fun o ho hmem => hothers o ho ?_, hms.trans ((hown.filter _).append_right _)⟩
  exact (hown.map _).mem_iff.mpr hmem

theorem mem_cases (h : Rearranges own omitted ms) {m : MemberText} (hm : m ∈ ms) :
    m ∈ own ∨ m.1 ∉ own.map Prod.fst ∧ ∃ o : Filler, m.2 = o.wireText := by
  obtain ⟨others, hothers, hms⟩ := h
  rcases List.mem_append.mp (hms.mem_iff.mp hm) with hown | hother
  · exact .inl (List.mem_of_mem_filter hown)
  · obtain ⟨o, ho, rfl⟩ := List.mem_map.mp hother
    exact .inr ⟨hothers o ho, o.2, rfl⟩

variable {σ α : Type} {s : Shape σ α}

theorem own_perm (h : Rearranges own omitted ms) (hs : s.names ⊆ own.map Prod.fst) :
    (s.own ms).Perm (s.own (own.filter (·.1 ∉ omitted))) := by
  obtain ⟨others, hothers, hms⟩ := h
  have hnone : s.own (others.map fun o => (o.1, o.2.wireText)) = [] := by
    unfold Shape.own
    rw [List.map_map, List.filter_eq_nil_iff]
    intro k hk
    obtain ⟨o, ho, rfl⟩ := List.mem_map.mp hk
    simpa using fun hmem => hothers o ho (hs hmem)
  have hperm := (hms.map Prod.fst).filter (· ∈ s.names)
  rw [List.map_append, List.filter_append] at hperm
  change (s.own ms).Perm (s.own _ ++ s.own _) at hperm
  rwa [hnone, List.append_nil] at hperm

theorem once (h : Rearranges own omitted ms) (hs : s.names ⊆ own.map Prod.fst)
    (hown : (own.map Prod.fst).Nodup) : (s.own ms).Nodup := by
  rw [(h.own_perm hs).nodup_iff]
  exact ((hown.sublist (List.filter_sublist.map _))).filter _

theorem mem_own_iff (h : Rearranges own omitted ms) (hs : s.names ⊆ own.map Prod.fst)
    {k : String} (hk : k ∈ s.names) : k ∈ s.own ms ↔ k ∉ omitted := by
  have hmem := hs hk
  rw [(h.own_perm hs).mem_iff, Shape.own, List.mem_filter, and_iff_left (by simpa using hk)]
  constructor
  · intro hleft
    obtain ⟨m, hm, rfl⟩ := List.mem_map.mp hleft
    simpa using (List.mem_filter.mp hm).2
  · intro homitted
    obtain ⟨m, hm, rfl⟩ := List.mem_map.mp hmem
    exact List.mem_map_of_mem (List.mem_filter.mpr ⟨hm, by simpa using homitted⟩)

end Rearranges

namespace Wire

variable {σ α β : Type} {s : Shape σ α} {draft : List String → σ} {empty : σ}
  {fields ms : List MemberText} {omitted : List String}

theorem Lists.fits {spread : List MemberText} (h : Lists s draft fields)
    (hnames : ((fields ++ spread).map Prod.fst).Nodup)
    (hms : Rearranges (fields ++ spread) omitted ms) : s.Fits draft ms := by
  rw [List.map_append, h.names] at hnames
  refine ⟨fun m hm hk => ?_, hms.once ?_ ?_⟩
  · rcases hms.mem_cases hm with hown | ⟨hforeign, -⟩
    · rcases List.mem_append.mp hown with hfield | hspread
      · exact h.fills m hfield
      · exact absurd rfl ((List.nodup_append.mp hnames).2.2 _ hk _ (List.mem_map_of_mem hspread))
    · rw [List.map_append, h.names] at hforeign
      exact absurd (List.mem_append_left _ hk) hforeign
  · rw [List.map_append, h.names]
    exact List.subset_append_left _ _
  · rwa [List.map_append, h.names]

/-- A record is read back from its members in any order. -/
theorem run_record {a : α} (hempty : draft [] = empty) (h : Lists s draft fields)
    (hs : s.names.Nodup) (hms : Rearranges fields [] ms)
    (hcomplete : ∀ names, (∀ k ∈ s.names, k ∈ names) → s.complete (draft names) = .ok a) :
    run (record s empty) (objectText ms) = .ok a := by
  subst hempty
  have hknown : s.names ⊆ fields.map Prod.fst := h.names ▸ List.Subset.refl _
  have hall : Rearranges (fields ++ []) [] ms := by rwa [List.append_nil]
  have hfits : s.Fits draft ms := h.fits (by rwa [List.append_nil, h.names]) hall
  refine Takes.run (Shape.takes_record hfits hs (fun m hm hk => ?_) (hcomplete _ fun k hk => ?_))
  · rcases hms.mem_cases hm with hown | ⟨-, o, htext⟩
    · exact absurd (h.names ▸ List.mem_map_of_mem hown) hk
    · rw [htext]
      exact o.takes_passValue 1
  · exact (hms.mem_own_iff hknown hk).mpr List.not_mem_nil

/-! ## Switches -/

/-- The draft in which the named members were read. -/
def SwitchesDraft.ofNames (s : Switches) (names : List String) : SwitchesDraft :=
  { timestamp := given names "timestamp" s.timestamp
    modeSlot := given names "mode_slot" s.modeSlot
    arm := given names "arm_switch" s.arm
    kill := given names "kill_switch" s.kill
    returnHome := given names "return_switch" s.returnHome
    loiter := given names "loiter_switch" s.loiter
    offboard := given names "offboard_switch" s.offboard
    gear := given names "gear_switch" s.gear }

theorem lists_switches (s : Switches) :
    Lists switchesShape (SwitchesDraft.ofNames s) s.wireMembers := by
  refine .cons ⟨rfl, fills_field (takes_instant _) (fun _ => rfl) fun names => ?_⟩ <|
    .cons ⟨rfl, fills_field (takes_byte _) (fun _ => rfl) fun names => ?_⟩ <|
    .cons ⟨rfl, fills_field (takes_position _) (fun _ => rfl) fun names => ?_⟩ <|
    .cons ⟨rfl, fills_field (takes_position _) (fun _ => rfl) fun names => ?_⟩ <|
    .cons ⟨rfl, fills_field (takes_position _) (fun _ => rfl) fun names => ?_⟩ <|
    .cons ⟨rfl, fills_field (takes_position _) (fun _ => rfl) fun names => ?_⟩ <|
    .cons ⟨rfl, fills_field (takes_position _) (fun _ => rfl) fun names => ?_⟩ <|
    .cons ⟨rfl, fills_field (takes_position _) (fun _ => rfl) fun names => ?_⟩ .nil
  all_goals simp [SwitchesDraft.ofNames, given_concat]

theorem complete_switches (s : Switches) {names : List String}
    (h : ∀ k ∈ switchesShape.names, k ∈ names) :
    (SwitchesDraft.ofNames s names).complete = .ok s := by
  simp (disch := decide) only [SwitchesDraft.ofNames, given_of_names h]
  rfl

/-! ## Commands -/

def CommandDraft.ofNames (c : Command) (names : List String) : CommandDraft :=
  { kind := given names "command" c.kind
    param := given names "param1" c.param
    origin := given names "origin" c.origin
    targetSystem := given names "target_system" c.targetSystem
    targetComponent := given names "target_component" c.targetComponent
    timestamp := given names "timestamp" c.timestamp }

theorem takes_kind (k : CommandKind) :
    Takes (choice CommandKind.name [.armDisarm]) (stringText k.name) k := by
  cases k
  exact takes_bare rfl

theorem takes_origin (o : CommandOrigin) :
    Takes (choice CommandOrigin.name [.stickGesture]) (stringText o.name) o := by
  cases o
  exact takes_bare rfl

theorem lists_command {c : Command} (h : ReadsBack c.param) :
    Lists commandShape (CommandDraft.ofNames c) c.wireMembers := by
  refine .cons ⟨rfl, fills_field (takes_kind _) (fun _ => rfl) fun names => ?_⟩ <|
    .cons ⟨rfl, fills_field h.takes_single (fun _ => rfl) fun names => ?_⟩ <|
    .cons ⟨rfl, fills_field (takes_origin _) (fun _ => rfl) fun names => ?_⟩ <|
    .cons ⟨rfl, fills_field (takes_byte _) (fun _ => rfl) fun names => ?_⟩ <|
    .cons ⟨rfl, fills_field (takes_byte _) (fun _ => rfl) fun names => ?_⟩ <|
    .cons ⟨rfl, fills_field (takes_instant _) (fun _ => rfl) fun names => ?_⟩ .nil
  all_goals simp [CommandDraft.ofNames, given_concat]

theorem complete_command (c : Command) {names : List String}
    (h : ∀ k ∈ commandShape.names, k ∈ names) :
    (CommandDraft.ofNames c names).complete = .ok c := by
  simp (disch := decide) only [CommandDraft.ofNames, given_of_names h]
  rfl

/-! ## Axes -/

def AxesDraft.ofNames (a : Axes) (names : List String) : AxesDraft :=
  { x := given names "x" a.x
    y := given names "y" a.y
    z := given names "z" a.z
    r := given names "r" a.r }

variable {a : Axes}

theorem lists_axes (h : ∀ x ∈ a.numbers, ReadsBack x) :
    Lists axesShape (AxesDraft.ofNames a) a.wireMembers := by
  simp only [Axes.numbers, List.forall_mem_cons] at h
  obtain ⟨hx, hy, hz, hr, -⟩ := h
  refine .cons ⟨rfl, fills_field hx.takes_single (fun _ => rfl) fun names => ?_⟩ <|
    .cons ⟨rfl, fills_field hy.takes_single (fun _ => rfl) fun names => ?_⟩ <|
    .cons ⟨rfl, fills_field hz.takes_single (fun _ => rfl) fun names => ?_⟩ <|
    .cons ⟨rfl, fills_field hr.takes_single (fun _ => rfl) fun names => ?_⟩ .nil
  all_goals
    simp [AxesDraft.ofNames, given_concat, AxesDraft.setX, AxesDraft.setY, AxesDraft.setZ,
      AxesDraft.setR]

theorem complete_axes (a : Axes) {names : List String}
    (h : ∀ k ∈ axesShape.names, k ∈ names) : (AxesDraft.ofNames a names).complete = .ok a := by
  simp (disch := decide) only [AxesDraft.ofNames, given_of_names h]
  rfl

/-! ## Records with axes among their members -/

theorem suits_axis {name : String} {get : AxesDraft → Option Float32}
    {put : AxesDraft → Float32 → AxesDraft} {x : Float32} (h : ReadsBack x)
    (hget : ∀ names, get (AxesDraft.ofNames a names) = given names name x)
    (hput : ∀ names, put (AxesDraft.ofNames a names) x = AxesDraft.ofNames a (names ++ [name]))
    (haxis : ∀ v, axisOf name v = singleOf v >>= fun x => pure fun d => put d x) :
    ∃ v, Takes (anyValue 1) (singleText x) v ∧
      Shape.Suits axisOf (AxesDraft.ofNames a) (field name get single put) v := by
  obtain ⟨v, hv, htakes⟩ := h.takes_anyValue 1
  refine ⟨v, htakes, _, (haxis v).trans ?_, extends_field hget hput⟩
  rw [hv]
  rfl

theorem suits_axes (h : ∀ x ∈ a.numbers, ReadsBack x) :
    ∀ m ∈ a.wireMembers, ∃ mem ∈ axesShape.members, mem.name = m.1 ∧
      ∃ v, Takes (anyValue 1) m.2 v ∧ Shape.Suits axisOf (AxesDraft.ofNames a) mem v := by
  simp only [Axes.numbers, List.forall_mem_cons] at h
  obtain ⟨hx, hy, hz, hr, -⟩ := h
  simp only [Axes.wireMembers, axesShape, List.forall_mem_cons]
  refine ⟨⟨_, .head _, rfl, suits_axis hx (fun _ => rfl) (fun _ => ?_) fun _ => rfl⟩,
    ⟨_, .tail _ (.head _), rfl, suits_axis hy (fun _ => rfl) (fun _ => ?_) fun _ => rfl⟩,
    ⟨_, .tail _ (.tail _ (.head _)), rfl,
      suits_axis hz (fun _ => rfl) (fun _ => ?_) fun _ => rfl⟩,
    ⟨_, .tail _ (.tail _ (.tail _ (.head _))), rfl,
      suits_axis hr (fun _ => rfl) (fun _ => ?_) fun _ => rfl⟩, nofun⟩
  all_goals
    simp [AxesDraft.ofNames, given_concat, AxesDraft.setX, AxesDraft.setY, AxesDraft.setZ,
      AxesDraft.setR]

theorem run_withAxes {join : α → Axes → β} {f : α} {b : β} (hempty : draft [] = empty)
    (h : Lists s draft fields)
    (hs : (s.names ++ axesShape.names).Nodup) (hnumbers : ∀ x ∈ a.numbers, ReadsBack x)
    (hms : Rearranges (fields ++ a.wireMembers) omitted ms)
    (haxes : ∀ k ∈ axesShape.names, k ∉ omitted)
    (hcomplete : ∀ names, (∀ k ∈ s.names, k ∈ names ↔ k ∉ omitted) →
      s.complete (draft names) = .ok f) (hjoin : join f a = b) :
    run (withAxes s empty join) (objectText ms) = .ok b := by
  have hnames : (fields ++ a.wireMembers).map Prod.fst = s.names ++ axesShape.names := by
    rw [List.map_append, h.names, (lists_axes hnumbers).names]
  have hfields : s.names ⊆ (fields ++ a.wireMembers).map Prod.fst :=
    hnames ▸ List.subset_append_left _ _
  have hknown : axesShape.names ⊆ (fields ++ a.wireMembers).map Prod.fst :=
    hnames ▸ List.subset_append_right _ _
  have hothers : ∀ m ∈ ms, m.1 ∉ s.names → ∃ v, Takes (anyValue 1) m.2 v ∧
      (m.1 ∈ axesShape.names → ∃ mem ∈ axesShape.members, mem.name = m.1 ∧
        Shape.Suits axisOf (AxesDraft.ofNames a) mem v) := by
    intro m hm hk
    -- What is kept is an axis, or one of the others, which have no axis's name.
    rcases hms.mem_cases hm with hown | ⟨hforeign, o, htext⟩
    · rcases List.mem_append.mp hown with hfield | haxis
      · exact absurd (h.names ▸ List.mem_map_of_mem hfield) hk
      · obtain ⟨mem, hmem, hname, v, htakes, hsuits⟩ := suits_axes hnumbers m haxis
        exact ⟨v, htakes, fun _ => ⟨mem, hmem, hname, hsuits⟩⟩
    · exact ⟨o.found, htext ▸ o.takes_anyValue 1, fun haxis => absurd (hknown haxis) hforeign⟩
  obtain ⟨kept, htakes, hcollect⟩ :=
    Shape.takes_spread (h.fits (hnames ▸ hs) hms) hs (hms.once hknown (hnames ▸ hs)) hothers
      (hcomplete _ fun k hk => hms.mem_own_iff hfields hk)
      (complete_axes a fun k hk => (hms.mem_own_iff hknown hk).mpr (haxes k hk))
  have hspread : spreadAxes kept = .ok a := hcollect
  refine Takes.run fun rest hrest => ?_
  rw [withAxes, ← hempty, ← hjoin, bind_ok (htakes rest hrest)]
  simp only [hspread]
  rfl

/-! ## Samples -/

def SampleDraft.ofNames (s : Sample) (names : List String) : SampleDraft :=
  { timestamp := given names "timestamp" s.timestamp
    source := given names "data_source" s.source
    valid := given names "valid" s.valid }

def sampleFields (s : Sample) : List MemberText :=
  [("timestamp", s.timestamp.wireText), ("data_source", s.source.wireText),
    ("valid", flagText s.valid)]

theorem lists_sample (s : Sample) : Lists sampleShape (SampleDraft.ofNames s) (sampleFields s) := by
  refine .cons ⟨rfl, fills_field (takes_instant _) (fun _ => rfl) fun names => ?_⟩ <|
    .cons ⟨rfl, fills_field (takes_source _) (fun _ => rfl) fun names => ?_⟩ <|
    .cons ⟨rfl, fills_field (takes_flag _) (fun _ => rfl) fun names => ?_⟩ .nil
  all_goals simp [SampleDraft.ofNames, given_concat]

theorem complete_sample (s : Sample) {names : List String} (htime : "timestamp" ∈ names)
    (hsource : "data_source" ∉ names → s.source = .unknown)
    (hvalid : "valid" ∉ names → s.valid = true) :
    (SampleDraft.ofNames s names).complete =
      .ok fun a => ⟨a, s.timestamp, s.source, s.valid⟩ := by
  have hsource' : (given names "data_source" s.source).getD .unknown = s.source := by
    unfold given
    split
    · rfl
    · exact (hsource ‹_›).symm
  have hvalid' : (given names "valid" s.valid).getD true = s.valid := by
    unfold given
    split
    · rfl
    · exact (hvalid ‹_›).symm
  simp only [SampleDraft.complete, SampleDraft.ofNames, hsource', hvalid']
  rw [given, if_pos htime]
  rfl

theorem run_sample {s : Sample} (hnumbers : ∀ x ∈ s.axes.numbers, ReadsBack x)
    (homitted : omitted ⊆ ["data_source", "valid"])
    (hsource : "data_source" ∈ omitted → s.source = .unknown)
    (hvalid : "valid" ∈ omitted → s.valid = true)
    (hms : Rearranges s.wireMembers omitted ms) : run sample (objectText ms) = .ok s := by
  have hperm : s.wireMembers.Perm (sampleFields s ++ s.axes.wireMembers) :=
    List.perm_append_comm
  have hnodup : (sampleShape.names ++ axesShape.names).Nodup := by decide
  have haxes : ∀ k ∈ axesShape.names, k ∉ omitted := by
    have hapart : ∀ k ∈ axesShape.names, k ∉ ["data_source", "valid"] := by decide
    exact fun k hk hmem => hapart k hk (homitted hmem)
  have hcomplete : ∀ names, (∀ k ∈ sampleShape.names, k ∈ names ↔ k ∉ omitted) →
      sampleShape.complete (SampleDraft.ofNames s names) =
        .ok fun a => ⟨a, s.timestamp, s.source, s.valid⟩ := by
    intro names hnames
    have htime : "timestamp" ∉ ["data_source", "valid"] := by decide
    refine complete_sample s ((hnames _ (by decide)).mpr fun hmem => htime (homitted hmem))
      (fun hnone => hsource ?_) fun hnone => hvalid ?_
    · exact not_not.mp fun hkept => hnone ((hnames _ (by decide)).mpr hkept)
    · exact not_not.mp fun hkept => hnone ((hnames _ (by decide)).mpr hkept)
  exact run_withAxes rfl (lists_sample s) hnodup hnumbers (hms.of_perm hperm) haxes hcomplete rfl

/-! ## Setpoints -/

def SetpointDraft.ofNames (sp : Setpoint) (names : List String) : SetpointDraft :=
  { timestamp := given names "timestamp" sp.timestamp
    valid := given names "valid" sp.valid
    source := given names "data_source" sp.source
    armGesture := given names "arm_gesture" sp.armGesture
    disarmGesture := given names "disarm_gesture" sp.disarmGesture
    userOverride := given names "user_override" sp.userOverride
    slot := given names "instance" sp.slot }

def setpointFields (sp : Setpoint) : List MemberText :=
  [("timestamp", sp.timestamp.wireText), ("valid", flagText sp.valid),
    ("data_source", sp.source.wireText), ("arm_gesture", flagText sp.armGesture),
    ("disarm_gesture", flagText sp.disarmGesture), ("user_override", flagText sp.userOverride),
    ("instance", optionalText naturalText sp.slot)]

theorem lists_setpoint {sp : Setpoint} (h : ∀ n, sp.slot = some n → n < wordLimit) :
    Lists setpointShape (SetpointDraft.ofNames sp) (setpointFields sp) := by
  refine .cons ⟨rfl, fills_field (takes_instant _) (fun _ => rfl) fun names => ?_⟩ <|
    .cons ⟨rfl, fills_field (takes_flag _) (fun _ => rfl) fun names => ?_⟩ <|
    .cons ⟨rfl, fills_field (takes_source _) (fun _ => rfl) fun names => ?_⟩ <|
    .cons ⟨rfl, fills_field (takes_flag _) (fun _ => rfl) fun names => ?_⟩ <|
    .cons ⟨rfl, fills_field (takes_flag _) (fun _ => rfl) fun names => ?_⟩ <|
    .cons ⟨rfl, fills_field (takes_flag _) (fun _ => rfl) fun names => ?_⟩ <|
    .cons ⟨rfl, fills_field (takes_slot h) (fun _ => rfl) fun names => ?_⟩ .nil
  all_goals simp [SetpointDraft.ofNames, given_concat]

theorem complete_setpoint (sp : Setpoint) {names : List String}
    (h : ∀ k ∈ setpointShape.names, k ∈ names) :
    (SetpointDraft.ofNames sp names).complete =
      .ok fun a => { sp with axes := a } := by
  simp (disch := decide) only [SetpointDraft.ofNames, given_of_names h]
  rfl

theorem run_setpoint {sp : Setpoint} (hnumbers : ∀ x ∈ sp.axes.numbers, ReadsBack x)
    (hslot : ∀ n, sp.slot = some n → n < wordLimit) (hms : Rearranges sp.wireMembers [] ms) :
    run setpoint (objectText ms) = .ok sp := by
  have hperm : sp.wireMembers.Perm (setpointFields sp ++ sp.axes.wireMembers) :=
    List.perm_append_comm.cons _
  have hnodup : (setpointShape.names ++ axesShape.names).Nodup := by decide
  exact run_withAxes rfl (lists_setpoint hslot) hnodup hnumbers (hms.of_perm hperm)
    (fun _ _ => List.not_mem_nil)
    (fun names hnames => complete_setpoint sp fun k hk => (hnames k hk).mpr List.not_mem_nil) rfl

/-! ## All that is written -/

/-- Every value is read back from its text, and a record also with its members in another order and
others among them, if each of its numbers is read back from its own. -/
theorem read_written :
    (∀ t : Instant, run instant t.wireText = .ok t) ∧
    (∀ s : Source, run source s.wireText = .ok s) ∧
    (∀ m : Mode, run mode m.wireText = .ok m) ∧
    (∀ p : Position, run position p.wireText = .ok p) ∧
    (∀ (s : Switches) (ms : List MemberText), Rearranges s.wireMembers [] ms →
      run switches (objectText ms) = .ok s) ∧
    (∀ (c : Command) (ms : List MemberText), ReadsBack c.param →
      Rearranges c.wireMembers [] ms → run command (objectText ms) = .ok c) ∧
    (∀ (a : Axes) (ms : List MemberText), (∀ x ∈ a.numbers, ReadsBack x) →
      Rearranges a.wireMembers [] ms → run axes (objectText ms) = .ok a) ∧
    (∀ (sp : Setpoint) (ms : List MemberText), (∀ x ∈ sp.axes.numbers, ReadsBack x) →
      (∀ n, sp.slot = some n → n < wordLimit) →
      Rearranges sp.wireMembers [] ms → run setpoint (objectText ms) = .ok sp) ∧
    (∀ (s : Sample) (omitted : List String) (ms : List MemberText),
      (∀ x ∈ s.axes.numbers, ReadsBack x) →
      omitted ⊆ ["data_source", "valid"] → ("data_source" ∈ omitted → s.source = .unknown) →
      ("valid" ∈ omitted → s.valid = true) →
      Rearranges s.wireMembers omitted ms → run sample (objectText ms) = .ok s) := by
  refine ⟨fun t => (takes_instant t).run, fun s => (takes_source s).run,
    fun m => (takes_mode m).run, fun p => (takes_position p).run, ?_, ?_, ?_, ?_, ?_⟩
  · exact fun s ms hms =>
      run_record rfl (lists_switches s) (by decide) hms fun _ => complete_switches s
  · exact fun c ms hparam hms =>
      run_record rfl (lists_command hparam) (by decide) hms fun _ => complete_command c
  · exact fun a ms hnumbers hms =>
      run_record rfl (lists_axes hnumbers) (by decide) hms fun _ => complete_axes a
  · exact fun sp ms hnumbers hslot hms => run_setpoint hnumbers hslot hms
  · exact fun s omitted ms hnumbers homitted hsource hvalid hms =>
      run_sample hnumbers homitted hsource hvalid hms

def hovering : Sample := { axes := ⟨0.1, -0.2, 0.5, 0⟩, timestamp := .ofMillis 20 }

def jumbled : List MemberText :=
  [("r", "0.0".toList), ("note", stringText "low\n"), ("y", "-0.2".toList),
    ("timestamp", "20000".toList), ("x", "0.1".toList), ("seen", nullText), ("z", "0.5".toList)]

theorem read_written_jumbled :
    run sample hovering.wireText = .ok hovering ∧
      run sample (objectText jumbled) = .ok hovering := by
  have hnumbers : ∀ x ∈ hovering.axes.numbers, ReadsBack x := by
    unfold ReadsBack
    decide +kernel
  have hjumbled : Rearranges hovering.wireMembers ["data_source", "valid"] jumbled :=
    ⟨[("note", .text "low\n"), ("seen", .null)], by decide +kernel, by decide +kernel⟩
  obtain ⟨-, -, -, -, -, -, -, -, h⟩ := read_written
  exact ⟨h hovering [] _ hnumbers (by decide) nofun nofun (Rearranges.self _),
    h hovering _ jumbled hnumbers (by decide) (fun _ => rfl) (fun _ => rfl) hjumbled⟩

end Wire

end StickArbiter
