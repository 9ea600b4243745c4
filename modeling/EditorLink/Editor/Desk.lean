import EditorLink.Editor.Widget

/-! Widgets on a desk, with hooks that note what they see. -/
namespace EditorLink.Desk
variable {τ : Type}

/-- A hook notes its tag with the text, and may clear itself. -/
structure Hook (τ : Type) where
  tag : τ
  once : Bool
deriving Repr

structure State (τ : Type) where
  widgets : List (Widget (Hook τ))
  host : Host
  fired : List (τ × String) := []

inductive Command (τ : Type) where
  | hook (editor : Nat) (hook : Hook τ)
  | unhook (editor : Nat)
  | type (editor : Nat) (text : String)
  | mount (editor : Nat)
  | unmount
  | find (id : String)

def modify (s : State τ) (editor : Nat) (f : Widget (Hook τ) → Widget (Hook τ)) : State τ :=
  { s with widgets := s.widgets.modify editor f }

/-- The text is there before the hook runs. -/
def typeIn (s : State τ) (editor : Nat) (text : String) : State τ :=
  let s := modify s editor fun w => w.type text
  match s.widgets[editor]? with
  | some ⟨text, some hook, _, _⟩ =>
    let s := { s with fired := s.fired ++ [(hook.tag, text)] }
    if hook.once then modify s editor fun w => w.setHook none else s
  | _ => s

/-- Only a look-up answers anything. -/
def perform (s : State τ) : Command τ → State τ × Option Nat
  | .hook editor hook => (modify s editor fun w => w.setHook (some hook), none)
  | .unhook editor => (modify s editor fun w => w.setHook none, none)
  | .type editor text => (typeIn s editor text, none)
  | .mount editor => ({ s with host := { s.host with mounted := some editor } }, none)
  | .unmount => ({ s with host := { s.host with mounted := none } }, none)
  | .find id => (s, s.host.find? id)

structure Entry (τ : Type) where
  answer : Option Nat
  fired : List (τ × String)
  widgets : List (Widget (Hook τ))

def runFrom (s : State τ) : List (Command τ) → List (Entry τ)
  | [] => []
  | c :: rest =>
    let (after, answer) := perform s c
    ⟨answer, after.fired.drop s.fired.length, after.widgets⟩ :: runFrom after rest

end EditorLink.Desk
