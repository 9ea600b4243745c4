import EditorLink.Error
import EditorLink.Schedule
import EditorLink.Text.Lines

/-! The model behind an editor: it is fed texts, may be busy for a while, can be asked to stop, and
keeps the last text in a cache that can be cleared. -/
namespace EditorLink

/-- The text before an update, the text after it, and what was made of it. -/
structure ModelState where
  old : String := ""
  new : String := ""
  tree : Int := 0
deriving DecidableEq, Repr

def ModelState.changed (s : ModelState) : Bool := s.old ≠ s.new

/-- How long to wait before an update; the longest wait is longer than any clock can count. -/
inductive Interval where
  | millis (ms : Nat)
  | longest
deriving DecidableEq, Repr

def Interval.toMillis : Interval → Nat
  | millis ms => ms
  | longest => Schedule.longestSleep

structure Model where
  interval : Interval
  busyUntil : Option Nat := none
  stalled : Bool := false
  failsUncache : Bool := false
  lastText : String := ""
  updates : List (Nat × String) := []
  interrupts : Nat := 0
  uncaches : Nat := 0
deriving Repr

namespace Model

def busyFor (m : Model) (now ms : Nat) : Model := { m with busyUntil := some (now + ms) }

def stall (m : Model) : Model := { m with stalled := true }

def settle (m : Model) : Model := { m with stalled := false, busyUntil := none }

def interrupt (m : Model) : Model := { m with interrupts := m.interrupts + 1 }

/-- A stalled model stays active until it is settled. -/
def isActive (m : Model) (now : Nat) : Bool := m.stalled || m.busyUntil.any fun t => now < t

/-- Notes the text and remembers it; the tree of a text is the number of its lines. -/
def update (m : Model) (now : Nat) (text : String) : ModelState × Model :=
  (⟨m.lastText, text, Text.lineCount text⟩,
    { m with updates := m.updates ++ [(now, text)], lastText := text })

def uncache (m : Model) : Except ModelError Model :=
  if m.failsUncache then .error (.failed "cache is locked")
  else .ok { m with uncaches := m.uncaches + 1, lastText := "" }

end Model
end EditorLink
