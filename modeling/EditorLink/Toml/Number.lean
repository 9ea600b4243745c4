import EditorLink.Toml.Text
import EditorLink.Decimal.Binary

/-! Integers and floating point numbers. Digits may be grouped by single underscores. -/
namespace EditorLink.Toml
open Decimal

/-- The digits that continue a group; an underscore stays unless a digit follows it. -/
def moreDigits (isDigit : Char → Bool) : List Char → List Char × List Char
  | '_' :: c :: rest =>
    if isDigit c then let (ds, rest) := moreDigits isDigit rest; (c :: ds, rest)
    else ([], '_' :: c :: rest)
  | c :: rest =>
    if isDigit c then let (ds, rest) := moreDigits isDigit rest; (c :: ds, rest)
    else ([], c :: rest)
  | [] => ([], [])

/-- At least one digit, leading zeros allowed. -/
def digits (isDigit : Char → Bool) : Scan (List Char)
  | c :: rest =>
    if isDigit c then let (ds, rest) := moreDigits isDigit rest; some (c :: ds, rest) else none
  | [] => none

/-- A decimal integer's digits: a leading zero stands alone. -/
def wholeDigits : Scan (List Char)
  | '0' :: rest => some (['0'], rest)
  | s => digits Char.isDigit s

/-- True after a minus. -/
def sign : Scan Bool
  | '-' :: rest => some (true, rest)
  | '+' :: rest => some (false, rest)
  | s => some (false, s)

def leastInteger : Int := -9223372036854775808

def greatestInteger : Int := 9223372036854775807

def inRange? (i : Int) : Option Int :=
  if leastInteger ≤ i ∧ i ≤ greatestInteger then some i else none

def isOctal (c : Char) : Bool := '0' ≤ c && c ≤ '7'

def isBinary (c : Char) : Bool := c = '0' || c = '1'

/-- Digits in a base other than ten carry no sign. -/
def based (base : Nat) (isDigit : Char → Bool) (s : List Char) : Option (Int × List Char) := do
  let (ds, rest) ← digits isDigit s
  let i ← inRange? (valueOf base ds)
  some (i, rest)

def integer : Scan Int
  | '0' :: 'x' :: rest => based 16 isHex rest
  | '0' :: 'o' :: rest => based 8 isOctal rest
  | '0' :: 'b' :: rest => based 2 isBinary rest
  | s => do
    let (negative, s) ← sign s
    let (ds, rest) ← wholeDigits s
    let n : Int := valueOf 10 ds
    let i ← inRange? (if negative then -n else n)
    some (i, rest)

def fraction : Scan (List Char) := do
  expect ['.']
  digits Char.isDigit

def power : Scan Int := do
  let _ ← satisfy fun c => c = 'e' || c = 'E'
  let negative ← sign
  let ds ← digits Char.isDigit
  let n : Int := valueOf 10 ds
  pure (if negative then -n else n)

/-- Digits with a fraction, a power of ten, or both. A number that rounds to infinity is refused. -/
def decimalFloat : Scan Binary64 := do
  let negative ← sign
  let whole ← wholeDigits
  let part ← optional? fraction
  let exponent ← match part with
    | some _ => (·.getD 0) <$> optional? power
    | none => power
  let places := part.getD []
  let x := Binary64.ofDecimal negative (valueOf 10 (whole ++ places)) (exponent - places.length)
  if x = .infinite false then refuse else pure x

def specialFloat : Scan Binary64 := do
  let negative ← sign
  if ← accept ['i', 'n', 'f'] then pure (.infinite negative)
  else do
    expect ['n', 'a', 'n']
    pure .nan

def float : Scan Binary64 := decimalFloat <|> specialFloat

end EditorLink.Toml
