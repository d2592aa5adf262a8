import StickArbiter.Json.Number

/-!
# Lists and objects in a JSON text

How elements and members follow one another, and how a value is passed over: with care where it is
kept for later, and by its shape alone where it is ignored.
-/

namespace StickArbiter.Json

/-- How closely a value is looked at that is passed over. -/
inductive Care
  | full
  | shapeOnly
deriving DecidableEq, Repr

inductive Bracket
  | list
  | object
deriving DecidableEq, Repr

/-- Lists and objects that may stand around one another, this value's own brackets included. -/
def maxDepth : Nat := 127

namespace Reader

/-- Whether another element of the list follows; a comma before it is taken. -/
def nextElement (care : Care) (first : Bool) : Reader Bool := do
  match ← peekPastBlanks with
  | none => haltAhead .endInList
  | some c =>
    if c = ']' then pure false
    else if first then pure true
    else if c = ',' then
      let _ ← take
      if care = .shapeOnly then pure true
      else match ← peekPastBlanks with
        | none => haltAhead .endInValue
        | some d => if d = ']' then haltAhead .trailingComma else pure true
    else haltAhead .noListSeparator

/-- Whether another member of the object follows; a comma before it is taken, its key is not. -/
def nextMember (care : Care) (first : Bool) : Reader Bool := do
  match ← peekPastBlanks with
  | none => haltAhead .endInObject
  | some c =>
    if c = '\x7d' then pure false
    else if first then
      if c = '"' then pure true else haltAhead .keyNotString
    else if c = ',' then
      let _ ← take
      match ← peekPastBlanks with
      | none => haltAhead (if care = .full then .endInValue else .endInObject)
      | some d =>
        if d = '"' then pure true
        else if d = '\x7d' && care = .full then haltAhead .trailingComma
        else haltAhead .keyNotString
    else haltAhead .noObjectSeparator

def colon : Reader Unit := do
  match ← peekPastBlanks with
  | none => haltAhead .endInObject
  | some c => if c = ':' then let _ ← take else haltAhead .noColon

def key : Reader String := do
  let _ ← take
  string

def isNumberStart (c : Char) : Bool := c = '-' || c.isDigit

/-- A value without brackets, whose first character is `c`. -/
def scalar (c : Char) : Reader Found := do
  if c = 'n' then
    let _ ← take
    word ['u', 'l', 'l']
    pure .null
  else if c = 't' then
    let _ ← take
    word ['r', 'u', 'e']
    pure (.flag true)
  else if c = 'f' then
    let _ ← take
    word ['a', 'l', 's', 'e']
    pure (.flag false)
  else if isNumberStart c then
    let n ← number
    pure n.found
  else if c = '"' then
    let s ← key
    pure (.text s)
  else haltAhead .noValue

/-- Passes over a value without brackets, whose first character is `c`. -/
def passScalar (care : Care) (c : Char) : Reader Unit := do
  if care = .shapeOnly && isNumberStart c then passNumber
  else if care = .shapeOnly && c = '"' then
    let _ ← take
    passString
  else
    let _ ← scalar c

def passKey (care : Care) : Reader Unit := do
  if care = .shapeOnly then
    let _ ← take
    passString
  else
    let _ ← key

/-- Where a reader stands that passes over a value: in front of a value, or inside the innermost
brackets, in front of the first thing in them or behind a value. -/
inductive Stand
  | atValue
  | inside (first : Bool)

/-- Passes over values and brackets until all brackets are closed. The fuel bounds the steps. -/
def passFrom (care : Care) (around : Nat) : Nat → Stand → List Bracket → Reader Unit
  | 0, _, _ => halt .endInValue
  | n + 1, .atValue, stack => do
    match ← peekPastBlanks with
    | none => haltAhead .endInValue
    | some c =>
      let bracket? : Option Bracket :=
        if c = '[' then some .list else if c = '\x7b' then some .object else none
      match bracket? with
      | some b =>
        if care = .full && maxDepth ≤ around + stack.length then haltAhead .tooDeep
        else
          let _ ← take
          passFrom care around n (.inside true) (b :: stack)
      | none =>
        passScalar care c
        passFrom care around n (.inside false) stack
  | _ + 1, .inside _, [] => pure ()
  | n + 1, .inside first, .list :: stack => do
    if ← nextElement care first then passFrom care around n .atValue (.list :: stack)
    else
      let _ ← take
      passFrom care around n (.inside false) stack
  | n + 1, .inside first, .object :: stack => do
    if ← nextMember care first then
      passKey care
      colon
      passFrom care around n .atValue (.object :: stack)
    else
      let _ ← take
      passFrom care around n (.inside false) stack

/-- Passes over a value inside `around` brackets. -/
def passValue (care : Care) (around : Nat) : Reader Unit := fun text =>
  passFrom care around (3 * text.length + 3) .atValue [] text

/-- Any value. Of a list or an object only that it is one is kept. -/
def anyValue (around : Nat) : Reader Found := do
  match ← peekPastBlanks with
  | none => haltAhead .endInValue
  | some c =>
    if c = '[' then
      passValue .full around
      pure .sequence
    else if c = '\x7b' then
      passValue .full around
      pure .map
    else scalar c

end Reader

end StickArbiter.Json
