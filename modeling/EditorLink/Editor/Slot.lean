import EditorLink.Error

/-! A slot remembers the widget it last found for its id, without keeping it alive. A host that
crashes during a look-up leaves the slot's lock poisoned for good. -/
namespace EditorLink

/-- What the host does when it is asked. -/
inductive Lookup where
  | answer (widget : Option Nat)
  | crash
deriving DecidableEq, Repr

structure Slot where
  id : String
  cached : Option Nat := none
  poisoned : Bool := false
deriving DecidableEq, Repr

inductive Resolution where
  | remembered (widget : Nat)
  | found (widget : Nat)
  | missing
  | crashed
  | poisoned
deriving DecidableEq, Repr

namespace Resolution

/-- The host was asked. -/
def looked : Resolution → Bool
  | remembered _ => false
  | found _ => true
  | missing => true
  | crashed => true
  | poisoned => false

def widget? : Resolution → Option Nat
  | remembered w => some w
  | found w => some w
  | _ => none

end Resolution

namespace Slot

/-- The remembered widget as long as it lives, and otherwise what the host says. -/
def tryResolve (slot : Slot) (alive : Nat → Bool) (lookup : Lookup) : Resolution × Slot :=
  if slot.poisoned then (.poisoned, slot)
  else match slot.cached.filter alive with
    | some w => (.remembered w, slot)
    | none => match lookup with
      | .answer (some w) => (.found w, { slot with cached := some w })
      | .answer none => (.missing, { slot with cached := none })
      | .crash => (.crashed, { slot with poisoned := true })

def debug (slot : Slot) : String := "EditorSlot \x7b id: " ++ Text.quote slot.id ++ " \x7d"

end Slot
end EditorLink
