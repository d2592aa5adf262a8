import StickArbiter.Toml.Value

/-!
# TOML documents

A document is a row of statements: entries, headers of tables, and headers of tables that may be
repeated. The entries after a header belong to its table. A table is opened once; one that only
came about by the header of a table inside it may still be opened.
-/

namespace StickArbiter.Toml

/-! ## Keys in messages -/

def escapedInKey (c : Char) : List Char :=
  match c with
  | '\x08' => ['\\', 'b']
  | '\t' => ['\\', 't']
  | '\n' => ['\\', 'n']
  | '\x0c' => ['\\', 'f']
  | '\r' => ['\\', 'r']
  | '"' => ['\\', '"']
  | '\\' => ['\\', '\\']
  | c =>
    if ' ' ≤ c && c.toNat ≠ 0x7f then [c]
    else
      let digits := (Nat.toDigits 16 c.toNat).map Char.toUpper
      '\\' :: 'u' :: (List.replicate (4 - digits.length) '0' ++ digits)

/-- How a key is written: bare where it can be, else between double quotes, unless apostrophes save
the escapes. -/
def keyText (key : String) : String :=
  let cs := key.toList
  if !cs.isEmpty && cs.all Reader.isBare then key
  else if cs.any (fun c => c = '"' || c = '\\')
      && cs.all (fun c => Reader.isPlain c && c ≠ '\'') then "'" ++ key ++ "'"
  else "\"" ++ String.ofList (cs.flatMap escapedInKey) ++ "\""

/-! ## Drafts -/

structure Draft where
  root : Entries := []
  open_ : Entries := []
  /-- The path of the open table; the root's is empty. -/
  path : List Name := []
  /-- Whether the open table is one of several under its header. -/
  repeated : Bool := false
  /-- The extent of the open table, from its header on. -/
  extent : Extent := ⟨[], []⟩

namespace Draft

def pathText (d : Draft) : List String := d.path.map Name.text

/-- The key of a header is there already. -/
def taken (last : Name) (parents : List Name) : Breach :=
  .repeatedKey (keyText last.text) (some (parents.map Name.text))

def close (d : Draft) : Except Breach Draft :=
  match d.path.getLast? with
  | none => .ok { root := d.open_ }
  | some last => do
    let parents := d.path.dropLast
    let table : Node := .table (some d.extent) .header d.open_
    let add (_ : Origin) (es : Entries) : Except Breach (Unit × Entries) :=
      match es.get? last.text with
      | some (.tables e items) =>
        if d.repeated then
          let whole := if items.isEmpty then d.extent else { e with behind := d.extent.behind }
          .ok ((), es.replace last.text (.tables whole (items ++ [table])))
        else .error (taken last parents)
      | some _ => .error (taken last parents)
      | none =>
        .ok ((), es ++ [(last, if d.repeated then .tables d.extent [table] else table)])
    let (_, root) ← Entries.descend false false add [] parents .header d.root
    pure { root := root }

/-- Opens the table of a header. What is inside it already, by the headers of tables inside it, is
kept. -/
def openTable (d : Draft) (extent : Extent) (path : List Name) : Except Breach Draft := do
  let d ← d.close
  match path.getLast? with
  | none => pure d
  | some last =>
    let parents := path.dropLast
    let define (_ : Origin) (es : Entries) : Except Breach (Entries × Entries) :=
      match es.get? last.text with
      | none => .ok ([], es)
      | some (.table _ .implied inner) => .ok (inner, es.remove last.text)
      | some _ => .error (taken last parents)
    let (inner, root) ← Entries.descend false false define [] parents .header d.root
    pure { root := root, open_ := inner, path := path, extent := extent }

/-- Opens one more of the tables of a header that may be repeated. -/
def openRepeated (d : Draft) (extent : Extent) (path : List Name) : Except Breach Draft := do
  let d ← d.close
  match path.getLast? with
  | none => pure d
  | some last =>
    let parents := path.dropLast
    let define (_ : Origin) (es : Entries) : Except Breach (Unit × Entries) :=
      match es.get? last.text with
      | none => .ok ((), es ++ [(last, .tables extent [])])
      | some (.tables _ _) => .ok ((), es)
      | some _ => .error (taken last parents)
    let (_, root) ← Entries.descend false false define [] parents .header d.root
    pure { root := root, path := path, repeated := true, extent := extent }

def add (d : Draft) (path : List Name) (node : Node) : Except Breach Draft := do
  let es ← d.open_.insert false path node (some d.pathText)
  let behind := (node.extent?.map Extent.behind).getD d.extent.behind
  pure { d with open_ := es, extent := { d.extent with behind := behind } }

end Draft

namespace Reader

/-- A header with its brackets: its extent and its path. -/
def bracketed (opening closing : List Char) : Reader (Extent × List Name) := do
  let before ← get
  mark opening
  settle do
    let path ← key
    expecting ["`.`", "`" ++ String.ofList closing ++ "`"] (mark closing)
    let behind ← get
    trailing
    pure (⟨before, behind⟩, path)

/-- A header, which opens a table. At the very end of a text its bracket begins nothing. -/
def header (d : Draft) : Reader Draft := within "table header" do
  match (← get).drop 1 with
  | [] => giveWay
  | '[' :: _ =>
    checked (bracketed ['[', '['] [']', ']']) fun (extent, path) =>
      (d.openRepeated extent path).mapError .ofBreach
  | _ =>
    checked (bracketed ['['] [']']) fun (extent, path) =>
      (d.openTable extent path).mapError .ofBreach

/-- An entry on its line. The fuel bounds the steps to read its value. -/
def entry (fuel : Nat) (d : Draft) : Reader Draft :=
  checked
    (do
      let path ← key
      settle do
        equalsSign
        blanks
        let node ← value fuel 0
        trailing
        pure (path, node))
    fun (path, node) => (d.add path node).mapError .ofBreach

def statement (fuel : Nat) (d : Draft) : Reader Draft := do
  let d ← match ← peek with
    | none => giveWay
    | some c =>
      if c = '#' then
        settle comment
        settle lineEnd
        pure d
      else if c = '[' then settle (header d)
      else if c = '\n' || c = '\r' then
        newline
        pure d
      else settle (entry fuel d)
  blanks
  pure d

/-- The statements of a document, each of which takes a character of the bound. -/
def statements (fuel : Nat) : List Char → Draft → Reader Draft
  | [], d => pure d
  | _ :: bound, d => do
    match ← optional (statement fuel d) with
    | none => pure d
    | some d => statements fuel bound d

/-- The mark with which a text may begin. -/
def byteOrderMark : Char := Char.ofNat 0xfeff

def document : Reader Entries := do
  let _ ← optional (mark [byteOrderMark])
  blanks
  let text ← get
  let d ← statements (2 * text.length + 2) text {}
  if (← get).isEmpty then
    match d.close with
    | .ok d => pure d.root
    | .error b => refuse (.ofBreach b)
  else giveWay

end Reader

def read (text : List Char) : Except Halt Entries := (Reader.document text).map (·.1)

end StickArbiter.Toml
