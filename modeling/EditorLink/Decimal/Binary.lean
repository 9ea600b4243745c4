/-! Numbers of the 64-bit binary format, and the one nearest to a decimal. Everything is exact
arithmetic on natural numbers; ties between two neighbours go to the even mantissa. -/
namespace EditorLink.Decimal

/-- A finite magnitude `mantissa * 2 ^ exponent`. In normal form the mantissa has 53 bits, or the
exponent is the least one. -/
structure Magnitude where
  mantissa : Nat
  exponent : Int
deriving DecidableEq, Repr

inductive Binary64 where
  | finite (negative : Bool) (magnitude : Magnitude)
  | infinite (negative : Bool)
  | nan
deriving DecidableEq, Repr

def leastExponent : Int := -1074

def greatestExponent : Int := 971

/-- The quotient `num / den` rounded to the nearest natural number, a half to the even one. -/
def roundHalfEven (num den : Nat) : Nat :=
  let q := num / den
  let twice := 2 * (num % den)
  if twice < den then q
  else if den < twice then q + 1
  else if q % 2 = 0 then q else q + 1

/-- The quotient `num / den` in units of `2 ^ exponent`, again as a quotient of natural numbers. -/
def inUnits (num den : Nat) (exponent : Int) : Nat × Nat :=
  (num * Nat.pow 2 (-exponent).toNat, den * Nat.pow 2 exponent.toNat)

/-- The first number that needs a bit more than a mantissa has. -/
def mantissaBound : Nat := Nat.pow 2 53

/-- The exponent at which the mantissa of `num / den` has 53 bits, or the least one. -/
def exponentFor (num den : Nat) : Int :=
  let guess : Int := (num.log2 : Int) - (den.log2 : Int) - 53
  let exponent := max guess leastExponent
  let (n, d) := inUnits num den exponent
  if n / d < mantissaBound then exponent else exponent + 1

/-- The magnitude nearest to `num / den`; none when it lies beyond the greatest finite one. -/
def Magnitude.nearest? (num den : Nat) : Option Magnitude :=
  let exponent := exponentFor num den
  let (n, d) := inUnits num den exponent
  let rounded := roundHalfEven n d
  let result : Magnitude :=
    if rounded = mantissaBound then ⟨mantissaBound / 2, exponent + 1⟩ else ⟨rounded, exponent⟩
  if greatestExponent < result.exponent then none else some result

/-- The number nearest to `digits * 10 ^ exponent`. Far outside the format's range the answer is
settled by the number of digits alone. -/
def Binary64.ofDecimal (negative : Bool) (digits : Nat) (exponent : Int) : Binary64 :=
  let places : Int := (Nat.toDigits 10 digits).length + exponent
  if digits = 0 ∨ places < -400 then .finite negative ⟨0, leastExponent⟩
  else if 400 < places then .infinite negative
  else
    let num := digits * Nat.pow 10 exponent.toNat
    match Magnitude.nearest? num (Nat.pow 10 (-exponent).toNat) with
    | some magnitude => .finite negative magnitude
    | none => .infinite negative

end EditorLink.Decimal
