import EditorLink.Decimal.Binary

/-! The shortest decimal that reads back to a given binary number, and its positional text. -/
namespace EditorLink.Decimal

/-- The number `digits * 10 ^ exponent`. -/
structure Numeral where
  digits : Nat
  exponent : Int
deriving DecidableEq, Repr

def digitCount (n : Nat) : Nat := (Nat.toDigits 10 n).length

/-- The reals that round to a magnitude, as `low`, `value` and `high` in units of `10 ^ exponent`;
the two ends belong to it when `closed`. -/
structure Interval where
  low : Nat
  value : Nat
  high : Nat
  exponent : Int
  closed : Bool
deriving Repr

/-- Quarters of the last binary place reach both ends exactly; below a power of two the gap is half
as wide. -/
def Magnitude.interval (x : Magnitude) : Interval :=
  let quarter := x.exponent - 2
  let unit := if 0 ≤ quarter then Nat.pow 2 quarter.toNat else Nat.pow 5 (-quarter).toNat
  let gap := if x.mantissa = mantissaBound / 2 ∧ leastExponent < x.exponent then 1 else 2
  { low := (4 * x.mantissa - gap) * unit
    value := 4 * x.mantissa * unit
    high := (4 * x.mantissa + 2) * unit
    exponent := min quarter 0
    closed := x.mantissa % 2 = 0 }

def Interval.holds (i : Interval) (n : Nat) : Bool :=
  (i.low < n && n < i.high) || (i.closed && (n = i.low || n = i.high))

/-- The nearer neighbour of the value among the multiples of `10 ^ places` that lie in the interval;
of two equally near ones the upper. -/
def Interval.onGrid? (i : Interval) (places : Nat) : Option Numeral :=
  let step := Nat.pow 10 places
  let below := i.value / step
  let above := below + 1
  let chosen :=
    if i.holds (below * step) then
      if i.holds (above * step) && (above * step - i.value ≤ i.value - below * step) then some above
      else some below
    else if i.holds (above * step) then some above
    else none
  chosen.map fun n => ⟨n, i.exponent + places⟩

/-- The coarsest grid first. -/
def Interval.search (i : Interval) : Nat → Numeral
  | 0 => ⟨i.value, i.exponent⟩
  | places + 1 => (i.onGrid? places).getD (i.search places)

def Numeral.stripZeros (fuel : Nat) (d : Numeral) : Numeral :=
  match fuel with
  | 0 => d
  | fuel + 1 =>
    if d.digits ≠ 0 ∧ d.digits % 10 = 0 then stripZeros fuel ⟨d.digits / 10, d.exponent + 1⟩ else d

def Magnitude.shortest (x : Magnitude) : Numeral :=
  if x.mantissa = 0 then ⟨0, 0⟩
  else
    let i := x.interval
    let d := i.search (digitCount i.value)
    d.stripZeros (digitCount d.digits)

/-- All digits before and after the point, at least one on each side. -/
def Numeral.positional (d : Numeral) : String :=
  let digits := Nat.toDigits 10 d.digits
  if 0 ≤ d.exponent then
    String.ofList (digits ++ List.replicate d.exponent.toNat '0' ++ ['.', '0'])
  else
    let places := (-d.exponent).toNat
    let padded := List.replicate (places + 1 - digits.length) '0' ++ digits
    let whole := padded.length - places
    String.ofList (padded.take whole ++ '.' :: padded.drop whole)

/-- Zero keeps its sign, and nothing is written with an exponent. -/
def Binary64.text : Binary64 → String
  | .finite negative magnitude => (if negative then "-" else "") ++ magnitude.shortest.positional
  | .infinite negative => if negative then "-inf" else "inf"
  | .nan => "NaN"

end EditorLink.Decimal
