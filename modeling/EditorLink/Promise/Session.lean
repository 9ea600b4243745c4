import EditorLink.Promise.Basic
import EditorLink.Schedule

/-! Promises at work: computations that take time, observers, continuations, and the commands of
someone who holds handles to them. -/
namespace EditorLink.Promise
variable {α : Type}

/-- What a continuation does with the value in hand. -/
inductive Sequel where
  | nothing
  | cancel (promise : Nat)
  | crash

/-- What a computation does on its way: it sleeps, or it cancels a promise, perhaps its own. -/
inductive Stage where
  | sleep (ms : Nat)
  | cancel (promise : Nat)

/-- A computation that only sleeps is given by its delays. -/
instance : Coe (List Nat) (List Stage) := ⟨List.map Stage.sleep⟩

inductive Job (α : Type) where
  /-- Goes through the stages that are left and then ends with the result, or without one if it
  crashes. -/
  | compute (promise : Nat) (sleeping : Bool) (stages : List Stage) (result : Option α)
  | outcome (promise : Nat)
  /-- Runs once there is a value. -/
  | continuation (promise : Nat) (sequel : Sequel)

/-- A task bears the number of the command that started it. -/
structure Task (α : Type) where
  label : Nat
  job : Job α
  aborted : Bool := false

inductive Report (α : Type) where
  | tick
  | outcome (value : Option α)
  | continued (value : α)
  | aborted
deriving DecidableEq

/-- Handles and observers bear the number of the command that made them. Finished tasks leave a
gap. -/
structure Session (α : Type) where
  schedule : Schedule := {}
  promises : List (Promise α) := []
  tasks : List (Option (Task α)) := []
  handles : List (Nat × Nat) := []
  observers : List Nat := []
  events : List (Event (Report α)) := []

namespace Session

def wakeAll (s : Session α) (tasks : List Nat) : Session α :=
  { s with schedule := s.schedule.wakeAll tasks }

def emit (s : Session α) (label : Nat) (report : Report α) : Session α :=
  { s with events := s.events ++ [⟨s.schedule.now, label, report⟩] }

def spawn (s : Session α) (label : Nat) (job : Job α) : Session α :=
  { s with
    tasks := s.tasks ++ [some { label, job }]
    schedule := s.schedule.wake s.tasks.length }

def setJob (s : Session α) (id : Nat) (job : Job α) : Session α :=
  { s with tasks := s.tasks.modify id fun t => t.map fun t => { t with job } }

/-- Ends a task. -/
def remove (s : Session α) (id : Nat) : Session α :=
  { s with tasks := s.tasks.set id none, schedule := s.schedule.forget id }

def modify (s : Session α) (promise : Nat) (f : Promise α → Promise α) : Session α :=
  { s with promises := s.promises.modify promise f }

/-- Changes a promise and wakes those who have to know. -/
def update (s : Session α) (promise : Nat) (f : Promise α → Promise α × List Nat) : Session α :=
  match s.promises[promise]? with
  | none => s
  | some p => { s with promises := s.promises.set promise (f p).1 }.wakeAll (f p).2

def cancel (s : Session α) (promise : Nat) : Session α := s.update promise Promise.cancel

def finish (s : Session α) (promise : Nat) (value : Option α) : Session α :=
  s.update promise fun p => p.finish value

/-- Goes through stages up to the next pause. A delay of nothing is over at once. -/
def proceed (id label promise : Nat) (result : Option α) : List Stage → Session α → Session α
  | [], s => (s.finish promise result).remove id
  | .sleep ms :: rest, s =>
    if ms = 0 then (s.emit label .tick).proceed id label promise result rest
    else { s with schedule := s.schedule.sleep id ms }.setJob id (.compute promise true rest result)
  | .cancel target :: rest, s => (s.cancel target).proceed id label promise result rest

/-- A cancel comes first: the computation is dropped as it is. -/
def pollCompute (s : Session α) (id label promise : Nat) (sleeping : Bool) (stages : List Stage)
    (result : Option α) : Session α :=
  match s.promises[promise]? with
  | none => s.remove id
  | some p =>
    if p.cancelled then (s.finish promise none).remove id
    else
      let s := s.modify promise fun p => p.attend id
      let s := if sleeping then s.emit label .tick else s
      s.proceed id label promise result stages

def pollOutcome (s : Session α) (id label promise : Nat) : Session α :=
  match s.promises[promise]?.bind answer? with
  | none => s.modify promise fun p => p.observe id
  | some value => (s.emit label (.outcome value)).remove id

/-- What a continuation does when it runs. A crash is its own affair. -/
def follow (s : Session α) : Sequel → Session α
  | .nothing => s
  | .cancel target => s.cancel target
  | .crash => s

def pollContinuation (s : Session α) (id label promise : Nat) (sequel : Sequel) : Session α :=
  match s.promises[promise]?.bind answer? with
  | none => s.modify promise fun p => p.observe id
  | some none => s.remove id
  | some (some value) => ((s.emit label (.continued value)).remove id).follow sequel

/-- An aborted task goes no further; only an observer's end is reported. -/
def pollAborted (s : Session α) (id : Nat) (task : Task α) : Session α :=
  match task.job with
  | .outcome _ => (s.emit task.label .aborted).remove id
  | _ => s.remove id

def poll (id : Nat) (s : Session α) : Session α :=
  match s.tasks[id]? with
  | some (some task) =>
    if task.aborted then s.pollAborted id task
    else match task.job with
      | .compute promise sleeping stages result =>
        s.pollCompute id task.label promise sleeping stages result
      | .outcome promise => s.pollOutcome id task.label promise
      | .continuation promise sequel => s.pollContinuation id task.label promise sequel
  | _ => s

instance : Scheduled (Session α) where
  schedule := Session.schedule
  withSchedule s schedule := { s with schedule }
  poll := poll
  turns s := 16 * s.tasks.length + 16

inductive Command (α : Type) where
  | spawn (stages : List Stage) (result : Option α)
  | clone (handle : Nat)
  | drop (handle : Nat)
  | cancel (handle : Nat)
  | outcome (handle : Nat)
  | continuation (handle : Nat) (cancels : Option Nat) (crashes : Bool)
  | abort (task : Nat)
  | advance (ms : Nat)

def handle? (s : Session α) (handle : Nat) : Option Nat := s.handles.lookup handle

def observer (s : Session α) (number : Nat) (job : Job α) : Session α :=
  { s with observers := s.observers ++ [number] }.spawn number job

/-- The observers whose tasks have not ended. -/
def waiting (s : Session α) : List Nat :=
  s.observers.filter fun n => s.tasks.any fun t => t.any fun t => t.label = n

def sequel (s : Session α) (cancels : Option Nat) (crashes : Bool) : Sequel :=
  match cancels.bind s.handle? with
  | some promise => .cancel promise
  | none => if crashes then .crash else .nothing

def abort (s : Session α) (label : Nat) : Session α :=
  match s.tasks.findIdx? fun t => t.any fun t => t.label = label with
  | none => s
  | some id =>
    { s with
      tasks := s.tasks.modify id fun t => t.map fun t => { t with aborted := true }
      schedule := s.schedule.wake id }

/-- Carries out the command with the given number; none when it names something that is not
there. -/
def perform? (s : Session α) (number : Nat) : Command α → Option (Session α)
  | .spawn stages result =>
    let promise := s.promises.length
    let s := { s with
      promises := s.promises ++ [({} : Promise α)]
      handles := s.handles ++ [(number, promise)] }
    some (s.spawn number (.compute promise false stages result))
  | .clone handle => do
    let promise ← s.handle? handle
    some { s with handles := s.handles ++ [(number, promise)] }
  | .drop handle => do
    let _ ← s.handle? handle
    some { s with handles := s.handles.filter fun h => h.1 ≠ handle }
  | .cancel handle => do
    let promise ← s.handle? handle
    some (s.cancel promise)
  | .outcome handle => do
    let promise ← s.handle? handle
    some (s.observer number (.outcome promise))
  | .continuation handle cancels crashes => do
    let promise ← s.handle? handle
    some (s.observer number (.continuation promise (s.sequel cancels crashes)))
  | .abort task => if task ∈ s.observers then some (s.abort task) else none
  | .advance ms => some (Scheduled.advance ms s)

/-- What is seen after a command: the reports since the one before, the time, every handle with its
state, and the observers that still wait. -/
structure Entry (α : Type) where
  skipped : Bool
  events : List (Event (Report α))
  time : Nat
  handles : List (Nat × Promise α)
  pending : List Nat

def entry (skipped : Bool) (before after : Session α) : Entry α where
  skipped := skipped
  events := Event.inOrder (after.events.drop before.events.length)
  time := after.schedule.now
  handles := after.handles.filterMap fun (h, p) => after.promises[p]?.map fun p => (h, p)
  pending := after.waiting

def step (s : Session α) (number : Nat) (st : Step (Command α)) : Entry α × Session α :=
  let performed := s.perform? number st.command
  let after := performed.getD s
  let after := if st.settles then Scheduled.drain after else after
  (entry performed.isNone s after, after)

def runFrom (s : Session α) (number : Nat) : List (Step (Command α)) → List (Entry α)
  | [] => []
  | st :: rest =>
    let (e, s) := s.step number st
    e :: s.runFrom (number + 1) rest

def run (steps : List (Step (Command α))) : List (Entry α) := runFrom {} 0 steps

end Session
end EditorLink.Promise
