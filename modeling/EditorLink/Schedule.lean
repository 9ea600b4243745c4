/-! A clock, the tasks that are ready to run, and the timers that will make tasks ready. Ready tasks
run first in, first out; timers of one instant go off in the order in which they were set. With them go the
reports of tasks and the steps of a script. -/
namespace EditorLink

structure Timer where
  deadline : Nat
  task : Nat
deriving DecidableEq, Repr

/-- Time is counted in milliseconds, and tasks go by their numbers. -/
structure Schedule where
  now : Nat := 0
  ready : List Nat := []
  timers : List Timer := []
deriving DecidableEq, Repr

namespace Schedule

/-- A task that is ready already keeps its place. -/
def wake (s : Schedule) (task : Nat) : Schedule :=
  if task ∈ s.ready then s else { s with ready := s.ready ++ [task] }

def wakeAll (s : Schedule) (tasks : List Nat) : Schedule := tasks.foldl wake s

/-- Thirty years of 365 days. -/
def longestSleep : Nat := 30 * 365 * 86400 * 1000

/-- Sets a timer for the task; a longer sleep than the longest is cut to that. -/
def sleep (s : Schedule) (task ms : Nat) : Schedule :=
  { s with timers := s.timers ++ [⟨s.now + min ms longestSleep, task⟩] }

/-- Drops the timers of a task that no longer waits for them. -/
def forget (s : Schedule) (task : Nat) : Schedule :=
  { s with timers := s.timers.filter fun t => t.task ≠ task }

def next? (s : Schedule) : Option (Nat × Schedule) :=
  match s.ready with
  | [] => none
  | task :: rest => some (task, { s with ready := rest })

/-- Moves the clock, and lets every timer go off that is due by then. -/
def arrive (s : Schedule) (now : Nat) : Schedule :=
  let due := s.timers.filter fun t => t.deadline ≤ now
  let rest := s.timers.filter fun t => ¬ t.deadline ≤ now
  wakeAll { s with now := now, timers := rest } (due.map Timer.task)

/-- The next place to halt on the way from `now` to `target`: the first deadline in between, or the
target itself. -/
def nextStop (s : Schedule) (now target : Nat) : Nat :=
  (((s.timers.map Timer.deadline).filter fun d => now < d ∧ d ≤ target).min?).getD target

theorem nextStop_bounds (s : Schedule) {now target : Nat} (h : now < target) :
    now < s.nextStop now target ∧ s.nextStop now target ≤ target := by
  unfold nextStop
  cases found : ((s.timers.map Timer.deadline).filter fun d => now < d ∧ d ≤ target).min? with
  | none => exact ⟨h, Nat.le_refl _⟩
  | some d => simpa using (List.mem_filter.mp (List.min?_mem found)).2

end Schedule

/-- A state whose tasks are run from a schedule. -/
class Scheduled (σ : Type) where
  schedule : σ → Schedule
  withSchedule : σ → Schedule → σ
  /-- Runs one task up to its next pause. -/
  poll : Nat → σ → σ
  /-- More turns than the tasks can take at one instant. -/
  turns : σ → Nat

namespace Scheduled
variable {σ : Type} [Scheduled σ]

/-- Runs the task that has been ready the longest. -/
def turn (s : σ) : σ :=
  match (schedule s).next? with
  | none => s
  | some (task, rest) => poll task (withSchedule s rest)

def turnsUpTo : Nat → σ → σ
  | 0, s => s
  | n + 1, s => if (schedule s).ready.isEmpty then s else turnsUpTo n (turn s)

/-- Runs ready tasks until there are none. -/
def drain (s : σ) : σ := turnsUpTo (turns s) s

def arriveAt (now : Nat) (s : σ) : σ := withSchedule s ((schedule s).arrive now)

/-- From `now` on to `target`, with a halt at every deadline on the way. Ready tasks run before the
clock moves on; at the target itself they do not run yet. -/
def runTo (target now : Nat) (s : σ) : σ :=
  if _h : now < target then
    let idle := drain s
    let stop := (schedule idle).nextStop now target
    runTo target stop (arriveAt stop idle)
  else s
termination_by target - now
decreasing_by
  have := (schedule (drain s)).nextStop_bounds _h
  omega

def advance (ms : Nat) (s : σ) : σ :=
  runTo ((schedule s).now + ms) (schedule s).now s

end Scheduled

/-- A report of a task, with its time and the number of the command that started the task. -/
structure Event (ρ : Type) where
  time : Nat
  label : Nat
  report : ρ

namespace Event
variable {ρ : Type}

def notAfter (a b : Event ρ) : Bool :=
  a.time < b.time || (a.time = b.time && a.label ≤ b.label)

/-- By time, then by label; reports alike in both keep their order. -/
def inOrder (events : List (Event ρ)) : List (Event ρ) := events.mergeSort notAfter

end Event

/-- A command of a script. Tasks run after it unless it asks to have them wait. -/
structure Step (κ : Type) where
  command : κ
  settles : Bool := true

end EditorLink
