import EditorLink.Toml.Scan

/-! The four written forms of a string: basic or literal, on one line or on several. -/
namespace EditorLink.Toml

/-- Puts a character in front of what was read after it. -/
def before (c : Char) : Option (List Char × List Char) → Option (List Char × List Char)
  | some (text, rest) => some (c :: text, rest)
  | none => none

def isHex (c : Char) : Bool :=
  c.isDigit || ('a' ≤ c && c ≤ 'f') || ('A' ≤ c && c ≤ 'F')

def digitValue (c : Char) : Nat :=
  if c.isDigit then c.toNat - '0'.toNat
  else if 'a' ≤ c && c ≤ 'f' then c.toNat - 'a'.toNat + 10
  else c.toNat - 'A'.toNat + 10

/-- The value of digits in a base, most significant first. -/
def valueOf (base : Nat) (digits : List Char) : Nat :=
  digits.foldl (fun n c => base * n + digitValue c) 0

/-- The character with this code point in hexadecimal; none for a surrogate or beyond the last
one. -/
def scalar? (digits : List Char) : Option Char :=
  let n := valueOf 16 digits
  if digits.all isHex && n.isValidChar then some (Char.ofNat n) else none

def shortEscape? : Char → Option Char
  | 'b' => some '\x08'
  | 't' => some '\t'
  | 'n' => some '\n'
  | 'f' => some '\x0c'
  | 'r' => some '\r'
  | '"' => some '"'
  | '\\' => some '\\'
  | _ => none

/-- The rest of a basic string, after the opening quote. -/
def basicBody : List Char → Option (List Char × List Char)
  | [] => none
  | '"' :: rest => some ([], rest)
  | '\\' :: 'u' :: a :: b :: c :: d :: rest =>
    (scalar? [a, b, c, d]).bind fun x => before x (basicBody rest)
  | '\\' :: 'U' :: a :: b :: c :: d :: e :: f :: g :: h :: rest =>
    (scalar? [a, b, c, d, e, f, g, h]).bind fun x => before x (basicBody rest)
  | '\\' :: c :: rest => (shortEscape? c).bind fun x => before x (basicBody rest)
  | c :: rest => if isPlain c && c ≠ '\\' then before c (basicBody rest) else none

/-- The closing quotes of a string on several lines: up to two more belong to the text. -/
def closing (quote : Char) : List Char → List Char × List Char
  | a :: b :: rest =>
    if a = quote && b = quote then ([a, b], rest)
    else if a = quote then ([a], b :: rest)
    else ([], a :: b :: rest)
  | [a] => if a = quote then ([a], []) else ([], [a])
  | [] => ([], [])

/-- A backslash ends its line when only blanks stand between it and the line end. -/
def lineBreakAhead (s : List Char) : Bool :=
  match s.dropWhile isGap with
  | '\n' :: _ => true
  | '\r' :: '\n' :: _ => true
  | _ => false

/-- The rest of a basic string on several lines. After a backslash at a line's end, `skipping` is on
up to the next character that is no blank and no line end. -/
def basicLines (skipping : Bool) : List Char → Option (List Char × List Char)
  | [] => none
  | '\r' :: '\n' :: rest =>
    if skipping then basicLines true rest else before '\n' (basicLines false rest)
  | '"' :: '"' :: '"' :: rest => some (closing '"' rest)
  | '\\' :: 'u' :: a :: b :: c :: d :: rest =>
    (scalar? [a, b, c, d]).bind fun x => before x (basicLines false rest)
  | '\\' :: 'U' :: a :: b :: c :: d :: e :: f :: g :: h :: rest =>
    (scalar? [a, b, c, d, e, f, g, h]).bind fun x => before x (basicLines false rest)
  | '\\' :: c :: rest =>
    if lineBreakAhead (c :: rest) then basicLines true rest
    else (shortEscape? c).bind fun x => before x (basicLines false rest)
  | c :: rest =>
    if skipping && (isGap c || c = '\n') then basicLines true rest
    else if c = '\n' || (isPlain c && c ≠ '\\') then before c (basicLines false rest)
    else none

def literalBody : List Char → Option (List Char × List Char)
  | [] => none
  | '\'' :: rest => some ([], rest)
  | c :: rest => if isPlain c then before c (literalBody rest) else none

def literalLines : List Char → Option (List Char × List Char)
  | [] => none
  | '\r' :: '\n' :: rest => before '\n' (literalLines rest)
  | '\'' :: '\'' :: '\'' :: rest => some (closing '\'' rest)
  | c :: rest => if c = '\n' || isPlain c then before c (literalLines rest) else none

/-- A string in one of the two forms that stay on a line. -/
def lineText : Scan (List Char)
  | '"' :: rest => basicBody rest
  | '\'' :: rest => literalBody rest
  | _ => none

/-- A string in any form. A line end right after three opening quotes is not part of it. -/
def text : Scan (List Char)
  | '"' :: '"' :: '"' :: rest => basicLines false (dropLineEnd rest)
  | '\'' :: '\'' :: '\'' :: rest => literalLines (dropLineEnd rest)
  | s => lineText s
where
  dropLineEnd : List Char → List Char
    | '\n' :: rest => rest
    | '\r' :: '\n' :: rest => rest
    | rest => rest

end EditorLink.Toml
