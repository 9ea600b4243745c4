/-! Reading a document from the left: a scanner takes characters off the front of what is left, or
refuses it. Blanks, line ends and comments are here too. -/
namespace EditorLink.Toml

/-- What is left of the document is the state; `none` is a refusal. -/
abbrev Scan := StateT (List Char) Option

/-- A stretch of a document, by the number of characters left at its start and at its end. -/
structure Span where
  start : Nat
  stop : Nat
deriving DecidableEq, Repr

def refuse {α : Type} : Scan α := fun _ => none

def next? : Scan (Option Char) := fun s => some (s.head?, s)

def expect (text : List Char) : Scan Unit := fun s =>
  if text.isPrefixOf s then some ((), s.drop text.length) else none

/-- Takes the text if it comes next, and tells whether it did. -/
def accept (text : List Char) : Scan Bool := fun s =>
  if text.isPrefixOf s then some (true, s.drop text.length) else some (false, s)

def satisfy (p : Char → Bool) : Scan Char
  | c :: rest => if p c then some (c, rest) else none
  | [] => none

def takeWhile (p : Char → Bool) : Scan (List Char) := fun s => some (s.takeWhile p, s.dropWhile p)

/-- Nothing is taken when the scanner refuses. -/
def optional? {α : Type} (p : Scan α) : Scan (Option α) := fun s =>
  match p s with
  | some (a, rest) => some (some a, rest)
  | none => some (none, s)

def spanned {α : Type} (p : Scan α) : Scan (α × Span) := fun s =>
  match p s with
  | some (a, rest) => some ((a, ⟨s.length, rest.length⟩), rest)
  | none => none

def lift {α : Type} : Option α → Scan α
  | some a => pure a
  | none => refuse

def isGap (c : Char) : Bool := c = ' ' || c = '\t'

def gap : Scan Unit := do let _ ← takeWhile isGap

/-- Tab, printable ASCII, and everything beyond ASCII. -/
def isPlain (c : Char) : Bool := c = '\t' || (0x20 ≤ c.toNat && c.toNat ≤ 0x7E) || 0x80 ≤ c.toNat

def newline : Scan Unit
  | '\n' :: rest => some ((), rest)
  | '\r' :: '\n' :: rest => some ((), rest)
  | _ => none

def lineEnd : Scan Unit
  | [] => some ((), [])
  | rest => newline rest

def comment : Scan Unit := do
  expect ['#']
  let _ ← takeWhile isPlain

/-- The end of a line that already holds something: blanks, perhaps a comment, and a line end. -/
def trailing : Scan Unit := do
  gap
  let _ ← optional? comment
  lineEnd

/-- Blanks, line ends and comments between the items of an array. -/
def gaps : Nat → Scan Unit
  | 0 => pure ()
  | fuel + 1 => do
    gap
    match ← next? with
    | some '#' => do comment; newline; gaps fuel
    | some '\n' => do newline; gaps fuel
    | some '\r' => do newline; gaps fuel
    | _ => pure ()

def anyGap : Scan Unit := fun s => gaps (s.length + 1) s

end EditorLink.Toml
