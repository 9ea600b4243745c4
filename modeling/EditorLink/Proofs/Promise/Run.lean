import EditorLink.Promise.Session
import EditorLink.Proofs.Scheduled

/-! Runs of promises: commands, each under a number of its own, turns of the tasks in any order, and
moves of the clock. -/
namespace EditorLink.Promise

inductive Move (α : Type) where
  | perform (number : Nat) (command : Session.Command α)
  | turn (task : Nat)
  | arrive (now : Nat)

namespace Session
variable {α : Type}

/-- A task that gets its turn leaves the queue. -/
def taken (s : Session α) (task : Nat) : Session α :=
  { s with schedule := { s.schedule with ready := s.schedule.ready.erase task } }

def turn (s : Session α) (task : Nat) : Session α := poll task (s.taken task)

def move (s : Session α) : Move α → Session α
  | .perform number command => (s.perform? number command).getD s
  | .turn task => s.turn task
  | .arrive now => Scheduled.arriveAt now s

/-- What the tasks of the command with this number have reported. -/
def heard (s : Session α) (number : Nat) : List (Report α) :=
  (s.events.filter fun e => e.label = number).map Event.report

/-- Nothing bears the number. -/
structure Unused (s : Session α) (number : Nat) : Prop where
  handles : ∀ h ∈ s.handles, h.1 ≠ number
  observers : number ∉ s.observers
  tasks : ∀ (id : Nat) (task : Task α), s.tasks[id]? = some (some task) → task.label ≠ number
  heard : s.heard number = []

/-- Every command has a number of its own. Waiting is told as the turns and the moves of the clock that
it comes to. -/
def Fits (s : Session α) : Move α → Prop
  | .perform number command => s.Unused number ∧ ∀ ms, command ≠ .advance ms
  | .turn _ => True
  | .arrive _ => True

/-- Only allowed moves are made on the way from one session to the other. -/
inductive Reaches (allowed : Move α → Prop) (s : Session α) : Session α → Prop where
  | refl : Reaches allowed s s
  | move {t : Session α} (m : Move α) (before : Reaches allowed s t) (fits : t.Fits m)
      (fine : allowed m) : Reaches allowed s (t.move m)

/-- Whatever is done. -/
abbrev Leads : Session α → Session α → Prop := Reaches fun _ => True

/-- Any session that a script may bring about. -/
def Begun (s : Session α) : Prop := Leads {} s

theorem Reaches.leads {allowed : Move α → Prop} {s t : Session α} (reached : Reaches allowed s t) :
    Leads s t := by
  induction reached with
  | refl => exact .refl
  | move m before fits fine ih => exact .move m ih fits trivial

theorem Reaches.trans {allowed : Move α → Prop} {s t u : Session α} (first : Reaches allowed s t)
    (rest : Reaches allowed t u) : Reaches allowed s u := by
  induction rest with
  | refl => exact first
  | move m before fits fine ih => exact .move m ih fits fine

/-- A run in which nobody acts. -/
theorem reaches_inside {allowed : Move α → Prop} {s : Session α} (moves : List (Move α))
    (inside : ∀ m ∈ moves, allowed m ∧ ∀ n command, m ≠ .perform n command) :
    Reaches allowed s (moves.foldl move s) := by
  induction moves generalizing s with
  | nil => exact .refl
  | cons m rest ih =>
    obtain ⟨fine,nobody⟩ := inside m List.mem_cons_self
    have fits : s.Fits m := by
      cases m with
      | perform n command => exact absurd rfl (nobody n command)
      | turn id => trivial
      | arrive now => trivial
    have next := ih (s := s.move m) fun k member => inside k (List.mem_cons_of_mem m member)
    exact Reaches.trans (.move m .refl fits fine) next

theorem Begun.leads {s t : Session α} (begun : Begun s) (later : Leads s t) : Begun t :=
  Reaches.trans begun later

/-- What every move keeps holds ever after. -/
theorem Reaches.keeps {allowed : Move α → Prop} {P : Session α → Prop} {s t : Session α}
    (reached : Reaches allowed s t) (holds : P s)
    (step : ∀ u m, Reaches allowed s u → u.Fits m → allowed m → P u → P (u.move m)) : P t := by
  induction reached with
  | refl => exact holds
  | move m before fits fine ih => exact step _ m before fits fine ih

end Session
end EditorLink.Promise
