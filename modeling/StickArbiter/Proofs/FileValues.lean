import StickArbiter.Proofs.Accepted

/-!
# The values of a file

Of the values given under one name a section takes the last; what is not given keeps its default.
The parameters are read from four such names.
-/

namespace StickArbiter

open Toml Typed

namespace Toml.Typed

variable {σ α β : Type}

/-- A value is the one read from its node or, where there is none, the default. -/
def Yields (r : Typed α) (default value : α) : Option Node → Prop
  | none => value = default
  | some node => r node = .ok value

def labelled (es : Entries) : List (String × Node) := es.map fun (k, node) => (k.text, node)

/-- What a section gives under its names. A list gives its nodes to the first keys. -/
def given (keys : List (Key σ)) : Node → List (String × Node)
  | .table _ _ es => labelled es
  | .list _ items | .tables _ items => (keys.map (·.name)).zip items
  | _ => []

/-- The node that counts of those under one name. -/
def last (name : String) (nodes : List (String × Node)) : Option Node := nodes.reverse.lookup name

variable {name : String} {r : Typed α} {get : σ → α}

theorem last_map_cons {pair : β → String × Node} (x : β) (rest : List β) :
    last name ((x :: rest).map pair) = (last name (rest.map pair)).or (last name [pair x]) := by
  simp [last, List.lookup_append]

theorem last_singleton_of_ne {k : String} {node : Node} (h : k ≠ name) :
    last name [(k, node)] = none := by
  simp [last, List.lookup_cons, beq_eq_false_iff_ne.mpr h.symm]

/-! ## Names that set a part of a draft -/

/-- The part becomes what the key reads. -/
def Key.Sets (k : Key σ) (r : Typed α) (get : σ → α) : Prop :=
  ∀ node f, k.read node = .ok f → ∀ d, r node = .ok (get (f d))

def Key.Leaves (k : Key σ) (get : σ → α) : Prop :=
  ∀ node f, k.read node = .ok f → ∀ d, get (f d) = get d

@[simp]
theorem name_key {put : σ → α → σ} : (key name r put).name = name := rfl

theorem read_key {put : σ → α → σ} {node : Node} {f : σ → σ}
    (h : (key name r put).read node = .ok f) : ∃ a, r node = .ok a ∧ f = fun d => put d a := by
  obtain ⟨a, ha, hf⟩ := exists_of_map_eq_ok h
  exact ⟨a, ha, hf.symm⟩

theorem sets_key {put : σ → α → σ} (h : ∀ d a, get (put d a) = a) :
    (key name r put).Sets r get := by
  intro node f hread d
  obtain ⟨a, ha, rfl⟩ := read_key hread
  rw [ha, h]

theorem leaves_key {s : Typed β} {put : σ → β → σ} (h : ∀ d b, get (put d b) = get d) :
    (key name s put).Leaves get := by
  intro node f hread d
  obtain ⟨b, -, rfl⟩ := read_key hread
  exact h d b

/-- The key of a name sets the part, and every other key leaves it alone. -/
structure Owns (keys : List (Key σ)) (name : String) (r : Typed α) (get : σ → α) : Prop where
  known : ∃ k ∈ keys, k.name = name
  sets : ∀ k ∈ keys, k.name = name → k.Sets r get
  leaves : ∀ k ∈ keys, k.name ≠ name → k.Leaves get

/-! ## Drafts -/

variable {keys : List (Key σ)}

theorem Owns.yields_put (h : Owns keys name r get) {k : Key σ} (hk : k ∈ keys) {node : Node}
    {f : σ → σ} (hread : k.read node = .ok f) (d : σ) :
    Yields r (get d) (get (f d)) (last name [(k.name, node)]) := by
  by_cases hname : k.name = name
  · simpa [last, hname, Yields] using h.sets k hk hname node f hread d
  · rw [last_singleton_of_ne hname]
    exact h.leaves k hk hname node f hread d

/-- Of the nodes put into a draft the last one of the name counts. -/
theorem yields_foldlM {ε : Type} {step : σ → β → Except ε σ} {pair : β → String × Node}
    {xs : List β} (hstep : ∀ x ∈ xs, ∀ d d', step d x = .ok d' →
      Yields r (get d) (get d') (last name [pair x]))
    {d d' : σ} (h : xs.foldlM step d = .ok d') :
    Yields r (get d) (get d') (last name (xs.map pair)) := by
  induction xs generalizing d with
  | nil => cases h; rfl
  | cons x rest ih =>
    rw [List.foldlM_cons] at h
    cases hx : step d x with
    | error e => rw [hx] at h; cases h
    | ok d₁ =>
      rw [hx] at h
      have hfirst := hstep x List.mem_cons_self d d₁ hx
      have hrest := ih (fun y hy => hstep y (List.mem_cons_of_mem x hy)) h
      rw [last_map_cons]
      cases hlast : last name (rest.map pair) with
      | some node => rw [hlast] at hrest; exact hrest
      | none =>
        have hkept : get d' = get d₁ := by rw [hlast] at hrest; exact hrest
        rw [hkept]
        exact hfirst

theorem Owns.yields_fromEntries (h : Owns keys name r get) {d d' : σ} {es : Entries}
    (hread : fromEntries keys d es = .ok d') :
    Yields r (get d) (get d') (last name (labelled es)) := by
  refine yields_foldlM (fun x _ d d' hstep => ?_) hread
  obtain ⟨k, node⟩ := x
  dsimp only at hstep
  cases hfind : keys.find? (·.name = k.text) with
  | none =>
    rw [hfind] at hstep
    cases hstep
    obtain ⟨own, hown, rfl⟩ := h.known
    have hne : own.name ≠ k.text := by simpa using List.find?_eq_none.mp hfind own hown
    rw [last_singleton_of_ne hne.symm]
    rfl
  | some key =>
    have hname : key.name = k.text := by simpa using List.find?_some hfind
    rw [hfind] at hstep
    obtain ⟨f, hnode, rfl⟩ := exists_of_map_eq_ok (ok_of_mapError hstep)
    have hput := h.yields_put (List.mem_of_find?_eq_some hfind) hnode d
    rw [hname] at hput
    exact hput

theorem Owns.yields_fromItems (h : Owns keys name r get) {d d' : σ} {items : List Node}
    (hread : fromItems keys d items = .ok d') :
    Yields r (get d) (get d') (last name ((keys.map (·.name)).zip items)) := by
  have hpairs : (keys.map (·.name)).zip items = (keys.zip items).map (Prod.map (·.name) id) :=
    List.zip_map_left
  rw [hpairs]
  refine yields_foldlM (fun x hmem d d' hstep => ?_) hread
  obtain ⟨key, node⟩ := x
  obtain ⟨f, hnode, rfl⟩ := exists_of_map_eq_ok hstep
  exact h.yields_put (List.of_mem_zip hmem).1 hnode d

/-- A part of a section has the value of the last node under its name, or else its default. -/
theorem Owns.yields_sectionOf (h : Owns keys name r get) {title : String} {default d : σ}
    {node : Node} (hread : sectionOf title keys default node = .ok d) :
    Yields r (get default) (get d) (last name (given keys node)) := by
  cases node with
  | table e origin es => exact h.yields_fromEntries (ok_of_mapError hread)
  | list e items => exact h.yields_fromItems hread
  | tables e items => exact h.yields_fromItems hread
  | moment e => cases hread; rfl
  | _ => cases hread

theorem Yields.part {title : String} {default d : σ} {node? : Option Node}
    (h : Yields (sectionOf title keys default) default d node?) (howns : Owns keys name r get) :
    Yields r (get default) (get d) (node?.bind fun node => last name (given keys node)) := by
  cases node? with
  | none => exact congrArg get h
  | some node => exact howns.yields_sectionOf h

end Toml.Typed

/-! ## The parameters of a file -/

namespace Settings

theorem owns_arbitration :
    Owns keys "arbitration" (sectionOf "ArbitrationConfig" arbitrationKeys {}) arbitration where
  known := ⟨_, .head _, rfl⟩
  sets := by simp [keys, sets_key]
  leaves := by simp [keys, leaves_key]

theorem owns_gestures :
    Owns keys "gestures" (sectionOf "GestureConfig" gestureKeys {}) gestures where
  known := ⟨_, .tail _ (.head _), rfl⟩
  sets := by simp [keys, sets_key]
  leaves := by simp [keys, leaves_key]

theorem owns_lossTimeout :
    Owns arbitrationKeys "loss_timeout_ms" (natural "u64") ArbitrationSettings.lossTimeoutMs where
  known := ⟨_, .head _, rfl⟩
  sets := by simp [arbitrationKeys, sets_key]
  leaves := by simp [arbitrationKeys, leaves_key]

theorem owns_mode :
    Owns arbitrationKeys "selection_mode" (choice (Mode.all.map fun m => (m.name, m)))
      ArbitrationSettings.mode where
  known := ⟨_, .tail _ (.head _), rfl⟩
  sets := by simp [arbitrationKeys, sets_key]
  leaves := by simp [arbitrationKeys, leaves_key]

theorem owns_armHysteresis :
    Owns gestureKeys "arm_hysteresis_ms" (natural "u64") GestureSettings.armHysteresisMs where
  known := ⟨_, .head _, rfl⟩
  sets := by simp [gestureKeys, sets_key]
  leaves := by simp [gestureKeys, leaves_key]

theorem owns_overrideSensitivity :
    Owns gestureKeys "override_sensitivity" single GestureSettings.overrideSensitivity where
  known := ⟨_, .tail _ (.head _), rfl⟩
  sets := by simp [gestureKeys, sets_key]
  leaves := by simp [gestureKeys, leaves_key]

def partNode {σ : Type} (es : Entries) (title : String) (keys : List (Key σ)) (part : String) :
    Option Toml.Node :=
  (last title (labelled es)).bind fun node => last part (given keys node)

/-- Parameters are what a text gives under their names, or else the defaults. -/
structure ParametersOf (es : Entries) (p : Parameters) : Prop where
  armHysteresis : ∃ n, p.armHysteresis = .ofMillis n ∧
    Yields (natural "u64") 1000 n (partNode es "gestures" gestureKeys "arm_hysteresis_ms")
  lossTimeout : ∃ n, p.lossTimeout = .ofMillis n ∧
    Yields (natural "u64") 500 n (partNode es "arbitration" arbitrationKeys "loss_timeout_ms")
  mode : Yields (choice (Mode.all.map fun m => (m.name, m))) .fallback p.mode
    (partNode es "arbitration" arbitrationKeys "selection_mode")
  overrideSensitivity : Yields single 30 p.overrideSensitivity
    (partNode es "gestures" gestureKeys "override_sensitivity")

theorem parametersOf_of_ofText {text : String} {s : Settings} (h : ofText text = .ok s) :
    ∃ es, Toml.read text.toList = .ok es ∧ ParametersOf es s.parameters := by
  obtain ⟨es, hes, hread, -⟩ := entries_of_ofText h
  have harbitration := owns_arbitration.yields_fromEntries hread
  have hgestures := owns_gestures.yields_fromEntries hread
  exact ⟨es, hes, {
    armHysteresis := ⟨_, rfl, hgestures.part owns_armHysteresis⟩
    lossTimeout := ⟨_, rfl, harbitration.part owns_lossTimeout⟩
    mode := harbitration.part owns_mode
    overrideSensitivity := hgestures.part owns_overrideSensitivity }⟩

/-- The parameters that come into effect with a file are the file's. -/
theorem parametersOf_of_ofFile {file : Except IoFault (List UInt8)} {s : Settings}
    (h : ofFile file = .ok s) :
    ∃ bytes text es, file = .ok bytes ∧ textOfBytes ⟨bytes.toArray⟩ = .ok text ∧
      Toml.read text.toList = .ok es ∧ ParametersOf es s.parameters := by
  obtain ⟨bytes, text, hfile, htext, hs⟩ := ofText_of_ofFile h
  obtain ⟨es, hes, hp⟩ := parametersOf_of_ofText hs
  exact ⟨bytes, text, es, hfile, htext, hes, hp⟩

end Settings

end StickArbiter
