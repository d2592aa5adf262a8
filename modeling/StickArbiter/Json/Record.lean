import StickArbiter.Json.Structure

/-!
# Typed values and records in a JSON text

A record is an object with known members in any order, or a list of their values in theirs. If
members are spread, the object is kept whole until its own members are complete.
-/

namespace StickArbiter.Json

namespace Reader

def wrongType (expected : String) : Reader α := do
  match ← peek with
  | some '[' => reject (.wrongType .sequence expected)
  | some '\x7b' => reject (.wrongType .map expected)
  | some c =>
    let found ← scalar c
    reject (.wrongType found expected)
  | none => haltAhead .endInValue

/-- Goes to the next value and reads it by its first character. -/
def atValue (f : Char → Reader α) : Reader α := do
  match ← peekPastBlanks with
  | none => haltAhead .endInValue
  | some c => f c

/-! ## Scalars -/

def single : Reader Float32 := atValue fun c => do
  if isNumberStart c then
    let n ← number
    pure n.toFloat32
  else wrongType "f32"

/-- A natural number below a limit. -/
def naturalBelow (limit : Nat) (expected : String) : Reader Nat := atValue fun c => do
  if isNumberStart c then
    match ← number with
    | .natural n =>
      if n < limit then pure n else reject (.wrongValue (.integer n) expected)
    | .negative n => reject (.wrongValue (.integer n) expected)
    | .real x => reject (.wrongType (.real x) expected)
  else wrongType expected

def byte : Reader UInt8 := do
  let n ← naturalBelow 256 "u8"
  pure n.toUInt8

def flag : Reader Bool := atValue fun c => do
  if c = 't' || c = 'f' then
    match ← scalar c with
    | .flag b => pure b
    | _ => halt .noValue
  else wrongType "a boolean"

def null : Reader Unit := atValue fun c => do
  if c = 'n' then
    let _ ← scalar c
  else wrongType "unit"

def optional (r : Reader α) : Reader (Option α) := do
  if (← peekPastBlanks) = some 'n' then
    let _ ← scalar 'n'
    pure none
  else
    let a ← r
    pure (some a)

/-! ## Variants -/

/-- One of the values of a choice: alone, or made from a payload. -/
inductive Variant (α : Type)
  | bare (a : α)
  | carrying (r : Reader α)

def variantName (variants : List (String × Variant α)) : Reader (Variant α) := do
  let name ← key
  match variants.lookup name with
  | some v => pure v
  | none => reject (.unknownVariant name (variants.map (·.1)))

/-- A variant, written as its name or as an object with its name as the only key. A variant with a
payload needs the object; the payload of one without is null. -/
def variant (variants : List (String × Variant α)) : Reader α := atValue fun c => do
  if c = '"' then
    match ← variantName variants with
    | .bare a => pure a
    | .carrying _ => rejectWithin (.wrongType .bareVariant "newtype variant")
  else if c = '\x7b' then
    let _ ← take
    let v ← match ← peekPastBlanks with
      | none => haltAhead .endInObject
      | some d => if d = '"' then variantName variants else haltAhead .keyNotString
    colon
    let a ← match v with
      | .bare a => do
        null
        pure a
      | .carrying r => r
    match ← peekPastBlanks with
    | none => halt .endInObject
    | some d =>
      if d = '\x7d' then
        let _ ← take
        pure a
      else halt .noValue
  else haltAhead .noValue

/-! ## Records -/

/-- A member of a record that is read into a draft of type `σ`. -/
structure Member (σ : Type) where
  name : String
  /-- Whether the draft has it already. -/
  present : σ → Bool
  /-- Reads its value and says how to add it to a draft. -/
  read : Reader (σ → σ)

/-- The shape of a record: its name, its members, and how a draft is completed. -/
structure Shape (σ α : Type) where
  name : String
  members : List (Member σ)
  complete : σ → Except Mismatch α

/-- Gives a fault inside brackets that are still open a place: behind them, if they close there. -/
def settleAt (close : Char) (r : Reader α) : Reader α := fun text =>
  match r text with
  | .ok a => .ok a
  | .error h =>
    if h.settled then .error h
    else
      let left := h.left.dropWhile isBlank
      let left := if left.head? = some close then left.drop 1 else left
      .error { h with left := left, settled := true }

def finish (s : Shape σ α) (draft : σ) : Reader α :=
  match s.complete draft with
  | .ok a => pure a
  | .error m => reject m

/-- Reads the members of an object, its closing bracket included. The fuel bounds their number. -/
def membersFrom (step : String → σ → Reader σ) : Nat → Bool → σ → Reader σ
  | 0, _, _ => halt .endInObject
  | n + 1, first, draft => do
    if ← nextMember .full first then
      let k ← key
      let draft ← step k draft
      membersFrom step n false draft
    else
      let _ ← take
      pure draft

def members (step : String → σ → Reader σ) (draft : σ) : Reader σ :=
  settleAt '\x7d' fun text => membersFrom step (text.length + 1) true draft text

/-- Takes a member of the record; `other` takes a member that it does not know. -/
def takeMember (s : Shape σ α) (other : String → σ → Reader σ) (k : String) (draft : σ) :
    Reader σ :=
  match s.members.find? (·.name = k) with
  | some m =>
    if m.present draft then rejectWithin (.repeated k)
    else do
      colon
      let add ← m.read
      pure (add draft)
  | none => do
    colon
    other k draft

/-- The members' values from a list, in their order; `n` have been read. -/
def elements (s : Shape σ α) : List (Member σ) → Nat → σ → Reader σ
  | [], _, draft => pure draft
  | m :: ms, n, draft => do
    if ← nextElement .full (n = 0) then
      let add ← m.read
      elements s ms (n + 1) (add draft)
    else
      let _ ← take
      reject (.wrongLength n ("struct " ++ s.name ++ " with "
        ++ toString s.members.length ++ " elements"))

/-- The end of a list that holds nothing more. -/
def endList : Reader Unit := do
  match ← peekPastBlanks with
  | none => haltAhead .endInList
  | some c =>
    if c = ']' then let _ ← take
    else if c = ',' then
      let _ ← take
      if (← peekPastBlanks) = some ']' then haltAhead .trailingComma else haltAhead .trailingText
    else haltAhead .trailingText

def record (s : Shape σ α) (empty : σ) : Reader α := atValue fun c => do
  if c = '[' then
    let _ ← take
    let draft ← settleAt ']' (elements s s.members 0 empty)
    endList
    finish s draft
  else if c = '\x7b' then
    let _ ← take
    let draft ← members (takeMember s fun _ draft => do
      passValue .shapeOnly 1
      pure draft) empty
    finish s draft
  else wrongType ("struct " ++ s.name)

/-! ## Records with spread members -/

/-- Takes the spread members out of what an object holds besides, in its order. -/
def collect (s : Shape τ β) (fromValue : String → Found → Except Mismatch (τ → τ)) :
    List (String × Found) → τ → Except Mismatch β
  | [], draft => s.complete draft
  | (k, v) :: rest, draft =>
    match s.members.find? (·.name = k) with
    | none => collect s fromValue rest draft
    | some m =>
      if m.present draft then .error (.repeated k)
      else match fromValue k v with
        | .ok add => collect s fromValue rest (add draft)
        | .error e => .error e

/-- A record that keeps the members it does not know, in their order. -/
def openRecord (s : Shape σ α) (empty : σ) : Reader (α × List (String × Found)) :=
  atValue fun c => do
    if c = '\x7b' then
      let _ ← take
      let (draft, others) ← members
        (fun k (draft, others) => match s.members.find? (·.name = k) with
          | some m =>
            if m.present draft then rejectWithin (.repeated k)
            else do
              colon
              let add ← m.read
              pure (add draft, others)
          | none => do
            colon
            let v ← anyValue 1
            pure (draft, others ++ [(k, v)]))
        (empty, [])
      let a ← finish s draft
      pure (a, others)
    else wrongType ("struct " ++ s.name)

/-! ## Whole texts -/

def run (r : Reader α) (text : List Char) : Except ReadError α :=
  let all : Reader α := do
    let a ← r
    if (← peekPastBlanks).isSome then haltAhead .trailingText else pure a
  match all text with
  | .ok (a, _) => .ok a
  | .error h => .error (h.error text)

end Reader

end StickArbiter.Json
