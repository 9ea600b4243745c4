/-! Editor widgets: a text, one input hook, and counts of how often it was set and cleared. -/
namespace EditorLink

/-- A hook is known by what it is tied to. -/
structure Widget (κ : Type) where
  text : String := ""
  hook : Option κ := none
  attached : Nat := 0
  detached : Nat := 0
deriving Repr

namespace Widget
variable {κ : Type}

/-- The new hook takes the place of the old one. -/
def setHook (w : Widget κ) : Option κ → Widget κ
  | some k => { w with hook := some k, attached := w.attached + 1 }
  | none => { w with hook := none, detached := w.detached + 1 }

def type (w : Widget κ) (text : String) : Widget κ := { w with text }

end Widget

/-- A place for at most one editor, known under one id. -/
structure Host where
  id : String
  mounted : Option Nat := none
deriving Repr

def Host.find? (h : Host) (id : String) : Option Nat := if id = h.id then h.mounted else none

end EditorLink
