import StickArbiter.Toml.Number

/-!
# Values of a TOML text

Strings, numbers, dates, lists and tables between braces. The keys inside braces may be dotted, but
no table is opened twice: a table between braces is complete where it closes.
-/

namespace StickArbiter.Toml

namespace Entries

/-- Goes down a path from a table and changes the table at its end. Tables on the way are made as
needed; of repeated tables the last one is entered. A dotted key enters no table that has a header
or braces of its own, and no path leads through another value. `passed` is the path so far. -/
def descend (dotted inBraces : Bool) (change : Origin → Entries → Except Breach (β × Entries))
    (passed : List String) : List Name → Origin → Entries → Except Breach (β × Entries)
  | [], origin, es => change origin es
  | k :: ks, _, es =>
    let here := passed ++ [k.text]
    match es.get? k.text with
    | none => do
      let origin : Origin := if dotted then .dotted else .implied
      let (b, inner) ← descend dotted inBraces change here ks origin []
      pure (b, es ++ [(k, .table none origin inner)])
    | some (.table e origin inner) =>
      if origin = .braced && !inBraces then
        .error (.notATable here (Node.kind (.table e origin inner)))
      else if dotted && (origin = .header || origin = .braced) then
        .error (.repeatedKey k.text none)
      else do
        let (b, inner) ← descend dotted inBraces change here ks origin inner
        pure (b, es.replace k.text (.table e origin inner))
    | some (.tables e items) =>
      match items.reverse with
      | .table e' origin inner :: before => do
        let (b, inner) ← descend dotted inBraces change here ks origin inner
        pure (b, es.replace k.text (.tables e (before.reverse ++ [.table e' origin inner])))
      | _ => .error (.notATable here (Node.kind (.tables e items)))
    | some node => .error (.notATable here node.kind)

/-- Adds a value under a key that may be dotted. `home` is the table's own path, for messages. -/
def insert (es : Entries) (inBraces : Bool) (path : List Name) (node : Node)
    (home : Option (List String)) : Except Breach Entries :=
  match path.getLast? with
  | none => .ok es
  | some last => do
    let parents := path.dropLast
    let add (origin : Origin) (es : Entries) : Except Breach (Unit × Entries) :=
      if (origin = .dotted) = parents.isEmpty then .error (.repeatedKey last.text none)
      else if (es.get? last.text).isSome then .error (.repeatedKey last.text home)
      else .ok ((), es ++ [(last, node)])
    let (_, es) ← descend true inBraces add [] parents .header es
    pure es

def ofPairs (pairs : List (List Name × Node)) : Except Breach Entries :=
  pairs.foldlM (fun es (path, node) => es.insert true path node none) []

end Entries

namespace Reader

/-- Takes a value, given what its text turns out to be. -/
def withExtent (r : Reader (Extent → Node)) : Reader Node := do
  let before ← get
  let node ← r
  let behind ← get
  pure (node ⟨before, behind⟩)

/-- What is told where no value begins. -/
def orString (r : Reader α) : Reader α := expecting ["`\"`", "`'`"] (within "string" r)

/-- A value that is one word. A word that has begun has to go on. -/
def word (cs : List Char) : Reader Unit := orString (settle (mark cs))

/-- What begins with a digit or a sign. -/
def number : Reader (Extent → Node) :=
  either
    (do
      moment
      pure .moment)
    (either
      (do
        let x ← real
        pure fun e => .real e x)
      (do
        let n ← integer
        pure fun e => .integer e n))

/-- A value without brackets and braces, whose first character is `c`. -/
def plainValue (c : Char) : Reader (Extent → Node) :=
  if c = '"' || c = '\'' then do
    let s ← string
    pure fun e => .text e s
  else if c.isDigit || c = '+' || c = '-' then number
  else if c = '_' then do
    let n ← expecting ["leading digit"] integer
    pure fun e => .integer e n
  else if c = '.' then do
    let x ← expecting ["leading digit"] real
    pure fun e => .real e x
  else if c = 't' then do
    word ['t', 'r', 'u', 'e']
    pure fun e => .flag e true
  else if c = 'f' then do
    word ['f', 'a', 'l', 's', 'e']
    pure fun e => .flag e false
  else do
    let x ← orString (either infinity notANumber)
    pure fun e => .real e x

def closeList : Reader Unit := settle (expecting ["`]`"] (within "array" (mark [']'])))

def closeBraces : Reader Unit :=
  settle (expecting ["`\x7d`"] (within "inline table" (mark ['\x7d'])))

mutual

/-- A value inside `depth` brackets and braces. The fuel bounds the steps. -/
def value : Nat → Nat → Reader Node
  | 0, _ => refuse (.ofBreach .tooDeep)
  | n + 1, depth => withExtent do
    match ← peek with
    | none => giveWay
    | some c =>
      if (c = '[' || c = '\x7b') && maxDepth ≤ depth then refuse (.ofBreach .tooDeep)
      else if c = '[' then do
        mark ['[']
        let items ← settle do
          if (← peek) = some ']' then pure []
          else
            let items ← optional (items n (depth + 1))
            gap
            pure (items.getD [])
        closeList
        pure fun e => .list e items
      else if c = '\x7b' then do
        mark ['\x7b']
        let es ← settle <| checked
          (do
            let ps ← optional (pairs n (depth + 1))
            blanks
            pure (ps.getD []))
          fun ps => (Entries.ofPairs ps).mapError .ofBreach
        closeBraces
        pure fun e => .table (some e) .braced es
      else plainValue c

/-- The values of a list with commas between them. A comma behind the last one is taken. -/
def items : Nat → Nat → Reader (List Node)
  | 0, _ => giveWay
  | n + 1, depth => do
    gap
    let node ← value n depth
    gap
    let more ← optional do
      mark [',']
      items n depth
    match more with
    | some nodes => pure (node :: nodes)
    | none =>
      let _ ← optional (mark [','])
      pure [node]

/-- The pairs between braces with commas between them. A comma that no pair follows is left. -/
def pairs : Nat → Nat → Reader (List (List Name × Node))
  | 0, _ => giveWay
  | n + 1, depth => do
    let path ← key
    let node ← settle do
      equalsSign
      blanks
      let node ← value n depth
      blanks
      pure node
    let more ← optional do
      mark [',']
      pairs n depth
    pure ((path, node) :: more.getD [])

end

end Reader

end StickArbiter.Toml
