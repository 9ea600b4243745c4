import EditorLink.Editor.Slot

/-! Slots over one host that mounts widgets under ids. A widget lives as long as it is mounted
somewhere or held. -/
namespace EditorLink.Workbench

structure State where
  slots : List Slot
  mounted : List (String × Nat) := []
  held : List Nat := []
  made : Nat := 0
  crashing : Bool := false
  lookups : Nat := 0

def alive (s : State) (w : Nat) : Bool := s.mounted.any (fun m => m.2 = w) || w ∈ s.held

def living (s : State) : List Nat := (List.range s.made).filter (alive s)

def lookup (s : State) (id : String) : Lookup :=
  if s.crashing then .crash else .answer (s.mounted.lookup id)

inductive Command where
  | mount (id : String)
  | unmount (id : String)
  /-- With `required` a missing widget is an error; with `hold` a widget found is held. -/
  | resolve (slot : Nat) (required hold : Bool)
  | release (widget : Nat)
  | crash (on : Bool)
  | id (slot : Nat)
  | debug (slot : Nat)

inductive Answer where
  | nothing
  | widget (w : Option Nat)
  | resolved (w : Option Nat)
  | failed (e : LinkError)
  | crashed
  | flag (b : Bool)
  | text (s : String)
deriving Repr

def answer (id : String) (required : Bool) (r : Resolution) : Answer :=
  match r with
  | .remembered w => .resolved (some w)
  | .found w => .resolved (some w)
  | .missing => if required then .failed (.editorUnavailable id) else .resolved none
  | .crashed => .crashed
  | .poisoned => .failed .lockPoisoned

def hold (s : State) (w : Option Nat) : State :=
  match w with
  | some w => if w ∈ s.held then s else { s with held := s.held ++ [w] }
  | none => s

def resolve (s : State) (i : Nat) (required holds : Bool) : Answer × State :=
  match s.slots[i]? with
  | none => (.nothing, s)
  | some slot =>
    let (r, slot) := slot.tryResolve (alive s) (lookup s slot.id)
    let s := { s with
      slots := s.slots.set i slot
      lookups := if r.looked then s.lookups + 1 else s.lookups }
    (answer slot.id required r, if holds then hold s r.widget? else s)

def perform (s : State) : Command → Answer × State
  | .mount id =>
    (.widget (some s.made),
      { s with
        mounted := (id, s.made) :: s.mounted.filter fun m => m.1 ≠ id
        made := s.made + 1 })
  | .unmount id =>
    (.widget (s.mounted.lookup id), { s with mounted := s.mounted.filter fun m => m.1 ≠ id })
  | .resolve slot required holds => resolve s slot required holds
  | .release w => (.flag (w ∈ s.held), { s with held := s.held.filter (· ≠ w) })
  | .crash on => (.nothing, { s with crashing := on })
  | .id slot => ((s.slots[slot]?.map fun slot => Answer.text slot.id).getD .nothing, s)
  | .debug slot => ((s.slots[slot]?.map fun slot => Answer.text (slot.debug)).getD .nothing, s)

structure Entry where
  answer : Answer
  lookups : Nat
  living : List Nat

def runFrom (s : State) : List Command → List Entry
  | [] => []
  | c :: rest =>
    let (a, s) := perform s c
    ⟨a, s.lookups, living s⟩ :: runFrom s rest

def run (ids : List String) (commands : List Command) : List Entry :=
  runFrom { slots := ids.map fun id => { id } } commands

end EditorLink.Workbench
