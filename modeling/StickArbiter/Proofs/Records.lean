import Mathlib.Data.List.Basic
import StickArbiter.Proofs.ReadBack

/-!
# Records read in any order

A draft of a record depends only on the names of its members, so their order and other members do
not matter.
-/

namespace StickArbiter.Json

/-! ## Objects -/

/-- The members behind the first one, each with its comma. -/
def laterText (ms : List MemberText) : List Char := ms.flatMap fun m => ',' :: memberText m

theorem membersText_cons (m : MemberText) (ms : List MemberText) :
    membersText (m :: ms) = memberText m ++ laterText ms := by
  induction ms generalizing m with
  | nil => simp [membersText, laterText]
  | cons n ms ih =>
    change memberText m ++ ',' :: membersText (n :: ms) = _
    rw [ih]
    simp [laterText]

theorem length_le_membersText (ms : List MemberText) : ms.length ≤ (membersText ms).length := by
  have hlater : ∀ later : List MemberText, later.length ≤ (laterText later).length := by
    intro later
    induction later with
    | nil => exact Nat.le_refl _
    | cons m later ih =>
      rw [laterText, List.flatMap_cons, List.length_append, List.length_cons, List.length_cons]
      exact Nat.le_trans (Nat.succ_le_succ ih) (by rw [laterText]; omega)
  cases ms with
  | nil => exact Nat.le_refl _
  | cons m later =>
    have hfirst : 1 ≤ (memberText m).length := by simp [memberText, stringText]
    rw [membersText_cons, List.length_append, List.length_cons]
    have := hlater later
    omega

theorem closes_laterText (ms : List MemberText) (rest : List Char) :
    Closes (laterText ms ++ '\x7d' :: rest) := by
  cases ms with
  | nil => exact closes_cons (.inr rfl) rest
  | cons m ms => exact closes_cons (.inl rfl) _

theorem memberText_append (m : MemberText) (rest : List Char) :
    memberText m ++ rest = stringText m.1 ++ ':' :: (m.2 ++ rest) := by
  simp [memberText]

namespace Reader

variable {σ τ α β : Type} {a : α} {b : β} {ms : List MemberText} {rest : List Char}

/-- A step that takes a member of an object, from its colon on. -/
def Steps (step : String → σ → Reader σ) (m : MemberText) (d d' : σ) : Prop :=
  ∀ rest, Closes rest → step m.1 d (':' :: (m.2 ++ rest)) = .ok (d', rest)

theorem nextMember_first (m : MemberText) (rest : List Char) :
    nextMember .full true (memberText m ++ rest) = .ok (true, memberText m ++ rest) := by
  rw [memberText_append, stringText_append]
  exact bind_ok (peekPastBlanks_cons (by decide) _)

theorem nextMember_later (m : MemberText) (rest : List Char) :
    nextMember .full false (',' :: (memberText m ++ rest)) = .ok (true, memberText m ++ rest) := by
  rw [memberText_append, stringText_append, nextMember,
    bind_ok (peekPastBlanks_cons (by decide) _)]
  exact (bind_ok rfl).trans (bind_ok (peekPastBlanks_cons (by decide) _))

section

variable {step : String → σ → Reader σ} {inv : List MemberText → σ → Prop}

/-- Each member of an object can be taken behind those in front of it, which keeps `inv`. -/
def Preserves (step : String → σ → Reader σ) (inv : List MemberText → σ → Prop)
    (ms : List MemberText) : Prop :=
  ∀ read m later, ms = read ++ m :: later → ∀ d, inv read d →
    ∃ d', Steps step m d d' ∧ inv (read ++ [m]) d'

theorem membersFrom_later {read later : List MemberText} (hms : ms = read ++ later)
    (hstep : Preserves step inv ms) {d : σ} (hinv : inv read d) :
    ∃ d', inv ms d' ∧ ∀ n rest, later.length < n →
      membersFrom step n false d (laterText later ++ '\x7d' :: rest) = .ok (d', rest) := by
  induction later generalizing read d with
  | nil =>
    rw [List.append_nil] at hms
    refine ⟨d, hms ▸ hinv, fun n rest hn => ?_⟩
    obtain ⟨n, rfl⟩ : ∃ k, n = k + 1 := ⟨n - 1, by omega⟩
    exact (bind_ok (bind_ok (peekPastBlanks_cons (by decide) _))).trans rfl
  | cons m later ih =>
    obtain ⟨d', htake, hinv'⟩ := hstep read m later hms d hinv
    obtain ⟨d'', hall, hread⟩ := ih (by simpa using hms) hinv'
    refine ⟨d'', hall, fun n rest hn => ?_⟩
    obtain ⟨n, rfl⟩ : ∃ k, n = k + 1 := ⟨n - 1, by omega⟩
    have htext : laterText (m :: later) ++ '\x7d' :: rest =
        ',' :: (memberText m ++ (laterText later ++ '\x7d' :: rest)) := by
      simp [laterText]
    rw [htext, membersFrom, bind_ok (nextMember_later m _), if_pos rfl, memberText_append,
      bind_ok (key_append m.1 _), bind_ok (htake _ (closes_laterText later rest)),
      hread n rest (by simpa using hn)]

theorem members_ok (hstep : Preserves step inv ms) {d : σ} (hinv : inv [] d) :
    ∃ d', inv ms d' ∧ ∀ rest,
      members step d (membersText ms ++ '\x7d' :: rest) = .ok (d', rest) := by
  have hfrom : ∃ d', inv ms d' ∧ ∀ n rest, ms.length ≤ n →
      membersFrom step (n + 1) true d (membersText ms ++ '\x7d' :: rest) = .ok (d', rest) := by
    cases ms with
    | nil =>
      exact ⟨d, hinv, fun n rest _ =>
        (bind_ok (bind_ok (peekPastBlanks_cons (by decide) _))).trans rfl⟩
    | cons m later =>
      obtain ⟨d', htake, hinv'⟩ := hstep [] m later rfl d hinv
      obtain ⟨d'', hall, hread⟩ := membersFrom_later rfl hstep hinv'
      refine ⟨d'', hall, fun n rest hn => ?_⟩
      rw [membersFrom, membersText_cons, List.append_assoc, bind_ok (nextMember_first m _),
        if_pos rfl, memberText_append, bind_ok (key_append m.1 _),
        bind_ok (htake _ (closes_laterText later rest)), hread n rest hn]
  obtain ⟨d', hall, hread⟩ := hfrom
  refine ⟨d', hall, fun rest => ?_⟩
  have hfuel := length_le_membersText ms
  have hlength : ms.length ≤ (membersText ms ++ '\x7d' :: rest).length := by
    rw [List.length_append]
    omega
  unfold members settleAt
  simp only [hread _ rest hlength]

end

/-! ## Drafts -/

/-- A member as far as it has been read. -/
def given (names : List String) (name : String) (a : α) : Option α :=
  if name ∈ names then some a else none

theorem given_concat (names : List String) (k name : String) (a : α) :
    given (names ++ [k]) name a = if name = k then some a else given names name a := by
  unfold given
  by_cases h : name = k <;> simp [h]

theorem isSome_given (names : List String) (name : String) (a : α) :
    (given names name a).isSome = decide (name ∈ names) := by
  unfold given
  split <;> simp_all

/-- A draft that is told by the names of the members read so far takes one more. -/
structure Extends (draft : List String → σ) (mem : Member σ) (add : σ → σ) : Prop where
  present : ∀ names, mem.present (draft names) = decide (mem.name ∈ names)
  add : ∀ names, add (draft names) = draft (names ++ [mem.name])

/-- The text is that of the member's value in a draft. -/
def Fills (draft : List String → σ) (mem : Member σ) (text : List Char) : Prop :=
  ∃ add, Takes mem.read text add ∧ Extends draft mem add

namespace Shape

variable {s : Shape σ α} {t : Shape τ β} {draft : List String → σ} {mem : Member σ}

def names (s : Shape σ α) : List String := s.members.map (·.name)

/-- The names of the record's members among those of an object. -/
def own (s : Shape σ α) {γ : Type} (ms : List (String × γ)) : List String :=
  (ms.map Prod.fst).filter (· ∈ s.names)

theorem find?_of_mem (hs : s.names.Nodup) (hmem : mem ∈ s.members) :
    s.members.find? (·.name = mem.name) = some mem := by
  unfold names at hs
  generalize s.members = members at *
  induction members with
  | nil => cases hmem
  | cons first members ih =>
    rw [List.map_cons, List.nodup_cons] at hs
    rcases List.mem_cons.mp hmem with rfl | hmem
    · simp
    · have hne : first.name ≠ mem.name := fun heq =>
        hs.1 (heq ▸ List.mem_map_of_mem hmem)
      rw [List.find?_cons_of_neg (by simpa using hne), ih hs.2 hmem]

theorem find?_of_not_mem {k : String} (hk : k ∉ s.names) :
    s.members.find? (·.name = k) = none := by
  rw [List.find?_eq_none]
  intro mem hmem
  simpa using fun heq : mem.name = k => hk (heq ▸ List.mem_map_of_mem hmem)

section

variable {γ : Type} {read later : List (String × γ)} {m : String × γ}

theorem own_concat_of_mem (hk : m.1 ∈ s.names) : s.own (read ++ [m]) = s.own read ++ [m.1] := by
  simp [own, hk]

theorem own_concat_of_not_mem (hk : m.1 ∉ s.names) : s.own (read ++ [m]) = s.own read := by
  simp [own, hk]

theorem not_mem_own (honce : (s.own (read ++ m :: later)).Nodup) (hk : m.1 ∈ s.names) :
    m.1 ∉ s.own read := by
  have hown : s.own (read ++ m :: later) = s.own read ++ m.1 :: s.own later := by
    simp [own, hk]
  rw [hown, List.nodup_append] at honce
  exact fun hmem => honce.2.2 _ hmem _ List.mem_cons_self rfl

end

/-- Members of an object that give a record: its own at most once each, with texts that fill the
draft. -/
structure Fits (s : Shape σ α) (draft : List String → σ) (ms : List MemberText) : Prop where
  own : ∀ m ∈ ms, m.1 ∈ s.names → ∃ mem ∈ s.members, mem.name = m.1 ∧ Fills draft mem m.2
  once : (s.own ms).Nodup

theorem Fits.step (h : s.Fits draft ms) (hs : s.names.Nodup) {read later : List MemberText}
    {m : MemberText} (hms : ms = read ++ m :: later) (hk : m.1 ∈ s.names) :
    ∃ mem, s.members.find? (·.name = m.1) = some mem ∧
      mem.present (draft (s.own read)) = false ∧
      ∃ add, Takes mem.read m.2 add ∧ add (draft (s.own read)) = draft (s.own (read ++ [m])) := by
  obtain ⟨mem, hmem, hname, add, htakes, hpresent, hadd⟩ := h.own m (by simp [hms]) hk
  have honce := h.once
  rw [hms] at honce
  refine ⟨mem, hname ▸ find?_of_mem hs hmem, ?_, add, htakes, ?_⟩
  · rw [hpresent, hname]
    simpa using not_mem_own honce hk
  · rw [hadd, hname, own_concat_of_mem hk]

theorem objectText_append (ms : List MemberText) (rest : List Char) :
    objectText ms ++ rest = '\x7b' :: (membersText ms ++ '\x7d' :: rest) := by
  simp [objectText]

theorem takes_record (h : s.Fits draft ms) (hs : s.names.Nodup)
    (hothers : ∀ m ∈ ms, m.1 ∉ s.names → Takes (passValue .shapeOnly 1) m.2 ())
    (hcomplete : s.complete (draft (s.own ms)) = .ok a) :
    Takes (record s (draft [])) (objectText ms) a := by
  have hstep : Preserves (takeMember s fun _ d => do
      passValue .shapeOnly 1
      pure d) (fun read d => d = draft (s.own read)) ms := by
    rintro read m later hms _ rfl
    by_cases hk : m.1 ∈ s.names
    · obtain ⟨mem, hfind, hpresent, add, htakes, hadd⟩ := h.step hs hms hk
      refine ⟨_, fun rest hrest => ?_, hadd⟩
      rw [takeMember, hfind]
      simp only [hpresent, Bool.false_eq_true, if_false]
      rw [bind_ok (colon_cons _), bind_ok (htakes rest hrest)]
      rfl
    · -- A member that the record does not know leaves the draft as it is.
      refine ⟨_, fun rest hrest => ?_, congrArg draft (own_concat_of_not_mem hk).symm⟩
      rw [takeMember, find?_of_not_mem hk]
      simp only []
      rw [bind_ok (colon_cons _), bind_ok (hothers m (by simp [hms]) hk rest hrest)]
      rfl
  obtain ⟨_, rfl, hread⟩ := members_ok hstep (d := draft []) rfl
  intro rest _
  rw [objectText_append, record, atValue_cons (by decide), if_neg (by decide), if_pos rfl,
    bind_ok rfl]
  refine (bind_ok (hread rest)).trans ?_
  rw [finish, hcomplete]
  rfl

/-! ## Records with spread members -/

/-- Takes a member of the record, or keeps one that it does not know. -/
def keepMember (s : Shape σ α) (k : String) (d : σ × List (String × Found)) :
    Reader (σ × List (String × Found)) :=
  match s.members.find? (·.name = k) with
  | some m =>
    if m.present d.1 then rejectWithin (.repeated k)
    else do
      colon
      let add ← m.read
      pure (add d.1, d.2)
  | none => do
    colon
    let v ← anyValue 1
    pure (d.1, d.2 ++ [(k, v)])

theorem openRecord_eq (s : Shape σ α) (empty : σ) :
    openRecord s empty = atValue (fun c => do
      if c = '\x7b' then
        let _ ← take
        let d ← Reader.members s.keepMember (empty, [])
        let a ← finish s d.1
        pure (a, d.2)
      else wrongType ("struct " ++ s.name)) := rfl

theorem takes_openRecord (h : s.Fits draft ms) (hs : s.names.Nodup)
    (good : String × Found → Prop)
    (hothers : ∀ m ∈ ms, m.1 ∉ s.names → ∃ v, Takes (anyValue 1) m.2 v ∧ good (m.1, v))
    (hcomplete : s.complete (draft (s.own ms)) = .ok a) :
    ∃ kept : List (String × Found), kept.map Prod.fst = (ms.map Prod.fst).filter (· ∉ s.names) ∧
      (∀ kv ∈ kept, good kv) ∧ Takes (openRecord s (draft [])) (objectText ms) (a, kept) := by
  have hstep : Preserves s.keepMember (fun read d => d.1 = draft (s.own read) ∧
      d.2.map Prod.fst = (read.map Prod.fst).filter (· ∉ s.names) ∧ ∀ kv ∈ d.2, good kv) ms := by
    rintro read m later hms ⟨_, kept⟩ ⟨rfl, hnames, hgood⟩
    by_cases hk : m.1 ∈ s.names
    · obtain ⟨mem, hfind, hpresent, add, htakes, hadd⟩ := h.step hs hms hk
      refine ⟨(_, kept), fun rest hrest => ?_, hadd, by simp [hnames, hk], hgood⟩
      rw [keepMember, hfind]
      simp only [hpresent, Bool.false_eq_true, if_false]
      rw [bind_ok (colon_cons _), bind_ok (htakes rest hrest)]
      rfl
    · obtain ⟨v, htakes, hv⟩ := hothers m (by simp [hms]) hk
      refine ⟨(_, kept ++ [(m.1, v)]), fun rest hrest => ?_,
        congrArg draft (own_concat_of_not_mem hk).symm, by simp [hnames, hk], ?_⟩
      · rw [keepMember, find?_of_not_mem hk]
        simp only []
        rw [bind_ok (colon_cons _), bind_ok (htakes rest hrest)]
        rfl
      · rw [List.forall_mem_append, List.forall_mem_singleton]
        exact ⟨hgood, hv⟩
  obtain ⟨⟨_, kept⟩, ⟨rfl, hnames, hgood⟩, hread⟩ :=
    members_ok hstep (d := (draft [], [])) ⟨rfl, rfl, nofun⟩
  refine ⟨kept, hnames, hgood, fun rest _ => ?_⟩
  rw [objectText_append, openRecord_eq, atValue_cons (by decide), if_pos rfl, bind_ok rfl]
  refine (bind_ok (hread rest)).trans ?_
  rw [finish, hcomplete]
  rfl

/-- The kept value is that of the member in a draft. -/
def Suits (fromValue : String → Found → Except Mismatch (τ → τ)) (draft : List String → τ)
    (mem : Member τ) (v : Found) : Prop :=
  ∃ add, fromValue mem.name v = .ok add ∧ Extends draft mem add

theorem collect_ok {fromValue : String → Found → Except Mismatch (τ → τ)}
    {draft : List String → τ} (ht : t.names.Nodup) {kept : List (String × Found)}
    (hkept : ∀ kv ∈ kept, kv.1 ∈ t.names →
      ∃ mem ∈ t.members, mem.name = kv.1 ∧ Suits fromValue draft mem kv.2)
    {read : List (String × Found)} (honce : (t.own (read ++ kept)).Nodup) :
    collect t fromValue kept (draft (t.own read)) = t.complete (draft (t.own (read ++ kept))) := by
  induction kept generalizing read with
  | nil => rw [List.append_nil, collect]
  | cons kv kept ih =>
    obtain ⟨k, v⟩ := kv
    rw [List.forall_mem_cons] at hkept
    have hsplit : read ++ (k, v) :: kept = read ++ [(k, v)] ++ kept := by simp
    have hnext := ih hkept.2 (hsplit ▸ honce)
    rw [← hsplit] at hnext
    rw [collect]
    by_cases hk : k ∈ t.names
    · obtain ⟨mem, hmem, rfl, add, hvalue, hpresent, hadd⟩ := hkept.1 hk
      have hfirst : mem.present (draft (t.own read)) = false := by
        rw [hpresent]
        simpa using not_mem_own honce hk
      rw [own_concat_of_mem hk] at hnext
      rw [find?_of_mem ht hmem]
      simp only [hfirst, Bool.false_eq_true, if_false, hvalue]
      rw [hadd, hnext]
    · rw [own_concat_of_not_mem hk] at hnext
      rw [find?_of_not_mem hk]
      exact hnext

theorem own_of_kept {kept : List (String × Found)} (hnames : (s.names ++ t.names).Nodup)
    (hkept : kept.map Prod.fst = (ms.map Prod.fst).filter (· ∉ s.names)) :
    t.own kept = t.own ms := by
  unfold own
  rw [hkept, List.filter_filter]
  refine List.filter_congr fun k _ => ?_
  by_cases hk : k ∈ t.names
  · have hnone : k ∉ s.names := fun hmem => (List.nodup_append.mp hnames).2.2 _ hmem _ hk rfl
    simp [hk, hnone]
  · simp [hk]

theorem takes_spread {fromValue : String → Found → Except Mismatch (τ → τ)}
    {spreadDraft : List String → τ} (h : s.Fits draft ms) (hnames : (s.names ++ t.names).Nodup)
    (honce : (t.own ms).Nodup)
    (hothers : ∀ m ∈ ms, m.1 ∉ s.names → ∃ v, Takes (anyValue 1) m.2 v ∧
      (m.1 ∈ t.names → ∃ mem ∈ t.members, mem.name = m.1 ∧ Suits fromValue spreadDraft mem v))
    (ha : s.complete (draft (s.own ms)) = .ok a)
    (hb : t.complete (spreadDraft (t.own ms)) = .ok b) :
    ∃ kept : List (String × Found),
      Takes (openRecord s (draft [])) (objectText ms) (a, kept) ∧
        collect t fromValue kept (spreadDraft []) = .ok b := by
  obtain ⟨hs, ht, -⟩ := List.nodup_append.mp hnames
  obtain ⟨kept, hkept, hsuits, htakes⟩ :=
    takes_openRecord h hs (fun kv => kv.1 ∈ t.names →
      ∃ mem ∈ t.members, mem.name = kv.1 ∧ Suits fromValue spreadDraft mem kv.2) hothers ha
  have hown := own_of_kept hnames hkept
  have hkeptOnce : (t.own ([] ++ kept)).Nodup := by rwa [List.nil_append, hown]
  have hcollect := collect_ok ht hsuits hkeptOnce
  rw [List.nil_append, hown] at hcollect
  exact ⟨kept, htakes, hcollect.trans hb⟩

end Shape

end Reader

end StickArbiter.Json
