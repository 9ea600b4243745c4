import EditorLink.Toml.Number

/-! Dates and times. Only their form and their ranges matter here: nothing reads their values. -/
namespace EditorLink.Toml

/-- A number of exactly this many digits. -/
def fixedDigits (count : Nat) : Scan Nat := fun s =>
  let ds := s.take count
  if ds.length = count && ds.all Char.isDigit then some (valueOf 10 ds, s.drop count) else none

def within (low high : Nat) (n : Nat) : Scan Unit :=
  if low ≤ n ∧ n ≤ high then pure () else refuse

def isLeap (year : Nat) : Bool := year % 4 = 0 && (year % 100 ≠ 0 || year % 400 = 0)

def daysIn (year month : Nat) : Nat :=
  if month = 2 then if isLeap year then 29 else 28
  else if month = 4 || month = 6 || month = 9 || month = 11 then 30
  else 31

def date : Scan Unit := do
  let year ← fixedDigits 4
  expect ['-']
  let month ← fixedDigits 2
  within 1 12 month
  expect ['-']
  let day ← fixedDigits 2
  within 1 (daysIn year month) day

/-- A second of 60 is a leap second. -/
def time : Scan Unit := do
  within 0 23 (← fixedDigits 2)
  expect [':']
  within 0 59 (← fixedDigits 2)
  expect [':']
  within 0 60 (← fixedDigits 2)
  let _ ← optional? do
    expect ['.']
    let _ ← satisfy Char.isDigit
    takeWhile Char.isDigit

def offset : Scan Unit := do
  let c ← satisfy fun c => c = 'Z' || c = 'z' || c = '+' || c = '-'
  if c = '+' || c = '-' then do
    within 0 23 (← fixedDigits 2)
    expect [':']
    within 0 59 (← fixedDigits 2)

def timeOfDay : Scan Unit := do
  let _ ← satisfy fun c => c = 'T' || c = 't' || c = ' '
  time
  let _ ← optional? offset

/-- A date, a date with a time of day, or a time. -/
def moment : Scan Unit := (do date; let _ ← optional? timeOfDay) <|> time

end EditorLink.Toml
