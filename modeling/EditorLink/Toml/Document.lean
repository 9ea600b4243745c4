import EditorLink.Toml.Moment
import EditorLink.Toml.Node

/-! Reading a whole document: keys, values, headers, and the sections they open. -/
namespace EditorLink.Toml

/-- Arrays and inline tables may stand inside one another this deep, and a key may have this many
parts. -/
def nestingLimit : Nat := 79

def isBare (c : Char) : Bool := c.isAlphanum || c = '-' || c = '_'

def bareKey : Scan (List Char) := do
  let name ← takeWhile isBare
  if name.isEmpty then refuse else pure name

def part : Scan Part := do
  gap
  let (name, span) ← spanned (lineText <|> bareKey)
  gap
  pure ⟨String.ofList name, span⟩

/-- The parts of a key, the last one apart. -/
def keyParts : Nat → Scan (List Part × Part)
  | 0 => refuse
  | limit + 1 => do
    let first ← part
    if ← accept ['.'] then do
      let (path, last) ← keyParts limit
      pure (first :: path, last)
    else pure ([], first)

def key : Scan (List Part × Part) := keyParts nestingLimit

def scalar : Scan Scalar := do
  match ← next? with
  | some '"' => return .text (String.ofList (← text))
  | some '\'' => return .text (String.ofList (← text))
  | some 't' => do expect ['t', 'r', 'u', 'e']; pure (.boolean true)
  | some 'f' => do expect ['f', 'a', 'l', 's', 'e']; pure (.boolean false)
  | _ =>
    (do moment; pure .moment) <|> (do return .float (← float)) <|> (do return .integer (← integer))

/-- The items of an array after its opening bracket; a comma may follow the last. -/
def arrayItems (item : Scan Node) : Nat → Scan (List Node)
  | 0 => refuse
  | fuel + 1 => do
    anyGap
    if ← accept [']'] then pure []
    else do
      let first ← item
      anyGap
      if ← accept [','] then do
        let others ← arrayItems item fuel
        pure (first :: others)
      else do
        expect [']']
        pure [first]

/-- The pairs of an inline table: all on one line, and no comma after the last. -/
def inlinePairs (item : Scan Node) : Nat → Entries → Scan Entries
  | 0, _ => refuse
  | fuel + 1, entries => do
    let (path, last) ← key
    expect ['=']
    gap
    let (node, span) ← spanned item
    let entries ← lift (entries.insert path last span node .written)
    gap
    if ← accept [','] then inlinePairs item fuel entries
    else do
      expect ['\x7d']
      pure entries

def inlineTable (item : Scan Node) : Scan Node := do
  gap
  if ← accept ['\x7d'] then pure (.table .closed [])
  else do
    let s ← get
    let entries ← inlinePairs item (s.length + 1) []
    pure (.table .closed entries)

/-- A value inside which brackets may nest to the given depth. -/
def value : Nat → Scan Node
  | 0 => do
    match ← next? with
    | some '[' => refuse
    | some '\x7b' => refuse
    | _ => return .scalar (← scalar)
  | depth + 1 => do
    match ← next? with
    | some '[' => do
      expect ['[']
      let s ← get
      return .array (← arrayItems (value depth) (s.length + 1))
    | some '\x7b' => do
      expect ['\x7b']
      inlineTable (value depth)
    | _ => return .scalar (← scalar)

/-- The entries read so far, and the path of the section that new keys go to. -/
structure Draft where
  entries : Entries
  current : List String

def names (path : List Part) (last : Part) : List String :=
  path.map Part.text ++ [last.text]

def headerLine (draft : Draft) : Scan Draft := do
  let ((isItem, path, last), span) ← spanned do
    expect ['[']
    let isItem ← accept ['[']
    let (path, last) ← key
    expect (if isItem then [']', ']'] else [']'])
    pure (isItem, path, last)
  trailing
  let change := if isItem then Entries.openItem path last span else Entries.openTable path last span
  let entries ← lift (change .written draft.entries)
  pure ⟨entries, names path last⟩

def keyLine (draft : Draft) : Scan Draft := do
  let (path, last) ← key
  expect ['=']
  gap
  let (node, span) ← spanned (value nestingLimit)
  trailing
  let change := Entries.inSection span.stop draft.current (Entries.insert path last span node)
  let entries ← lift (change .written draft.entries)
  pure { draft with entries }

def commentLine (draft : Draft) : Scan Draft := do
  comment
  lineEnd
  pure draft

def emptyLine (draft : Draft) : Scan Draft := do
  newline
  pure draft

/-- One line at a time until nothing is left. -/
def lines : Nat → Draft → Scan Draft
  | 0, _ => refuse
  | fuel + 1, draft => do
    gap
    match ← next? with
    | none => pure draft
    | some '#' => do lines fuel (← commentLine draft)
    | some '[' => do lines fuel (← headerLine draft)
    | some '\n' => do lines fuel (← emptyLine draft)
    | some '\r' => do lines fuel (← emptyLine draft)
    | some _ => do lines fuel (← keyLine draft)

/-- A byte order mark at the very start is not part of the document's lines. -/
def withoutMark : List Char → List Char
  | '\uFEFF' :: rest => rest
  | s => s

/-- The entries of the document, or none when it is not well formed. -/
def read? (document : String) : Option Entries :=
  let s := withoutMark document.toList
  match lines (s.length + 1) ⟨[], []⟩ s with
  | some (draft, _) => some draft.entries
  | none => none

end EditorLink.Toml
