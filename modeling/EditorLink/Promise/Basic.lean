/-! A promise: the value of a computation that any number of observers wait for, and that any holder
may cancel. Observers are the numbers of waiting tasks, in the order in which they came. -/
namespace EditorLink

structure Promise (α : Type) where
  cancelled : Bool := false
  value : Option α := none
  /-- The computation may still deliver. -/
  pending : Bool := true
  onCancel : List Nat := []
  onValue : List Nat := []
deriving Repr

namespace Promise
variable {α : Type}

def settled (p : Promise α) : Bool := p.value.isSome

/-- What an observer gets at this moment: nothing after a cancel or from a computation that ended
without a value. While neither is known it has to wait. -/
def answer? (p : Promise α) : Option (Option α) :=
  if p.cancelled then some none
  else match p.value with
    | some v => some (some v)
    | none => if p.pending then none else some none

def join (tasks : List Nat) (task : Nat) : List Nat :=
  if task ∈ tasks then tasks else tasks ++ [task]

/-- A task that is told of a cancel. -/
def attend (p : Promise α) (task : Nat) : Promise α :=
  { p with onCancel := join p.onCancel task }

/-- A task that is told of a cancel and of the value. -/
def observe (p : Promise α) (task : Nat) : Promise α :=
  { p with onCancel := join p.onCancel task, onValue := join p.onValue task }

/-- The tasks to wake stand beside the changed promise. -/
def cancel (p : Promise α) : Promise α × List Nat :=
  if p.cancelled then (p, []) else ({ p with cancelled := true, onCancel := [] }, p.onCancel)

/-- The computation ends, with a value or without one. -/
def finish (p : Promise α) (value : Option α) : Promise α × List Nat :=
  ({ p with value := value, pending := false, onValue := [] }, p.onValue)

end Promise
end EditorLink
