import EditorLink.Editor.Slot
import EditorLink.Editor.Widget
import EditorLink.Log.Notice
import EditorLink.Model.Basic
import EditorLink.Promise.Basic
import EditorLink.Schedule

/-! Everything a link lives among: widgets and the host that mounts them, models, registries, the
links themselves, their stop attempts, the running tasks, and what callers hold. -/
namespace EditorLink

/-- A link ties one model to the editor its slot finds. Its hook is known by its number. -/
structure Link where
  model : Nat
  config : Config
  slot : Slot
  live : Bool
  dead : Bool := false
  /-- Someone crashed while changing the hook. -/
  hookPoisoned : Bool := false
  /-- The promise of the last stop attempt. -/
  stop : Option Nat := none
  stopPoisoned : Bool := false

structure Registry where
  config : Config
  last : Option Nat := none
  poisoned : Bool := false

/-- A model together with how its updates go: they may fail at once, or take a while. -/
structure PlannedModel where
  model : Model
  failsUpdate : Option ModelError := none
  updateMillis : Nat := 0

/-- How models are to be made. -/
structure Blueprint where
  interval : Interval := .millis 50
  busy : Nat := 0
  stalled : Bool := false
  failsUncache : Bool := false
  failsUpdate : Option ModelError := none
  updateMillis : Nat := 0

def Blueprint.build (b : Blueprint) (now : Nat) : PlannedModel where
  model :=
    { interval := b.interval
      busyUntil := if b.busy = 0 then none else some (now + b.busy)
      stalled := b.stalled
      failsUncache := b.failsUncache }
  failsUpdate := b.failsUpdate
  updateMillis := b.updateMillis

/-- Where a collaborator can be made to crash. -/
inductive Site where
  | find
  | hook
  | factory
  | interrupt
  | isActive
  | update
  | getText
  | modelUncache
deriving DecidableEq, Repr

/-- How far an update has come; while it runs it knows its text and how often the model had been
interrupted when it began. -/
inductive UpdatePhase where
  | fresh
  | debouncing
  | running (text : String) (interrupts : Nat)
deriving Repr

/-- How an attempt to stop a model goes about it: for how long, and how often the model is asked. -/
structure StopPlan where
  model : Nat
  timeout : Nat
  poll : Nat
deriving DecidableEq, Repr

inductive Job where
  | update (link : Nat) (phase : UpdatePhase)
  /-- Once started it waits for a stop attempt. -/
  | uncache (link : Nat) (stop : Option Nat)
  /-- Once the link is there it goes by its number, and its teardown waits for a stop attempt. -/
  | create (registry : Nat) (name : String) (teardown : Option (Nat × Nat))
  /-- Once started it has a deadline. -/
  | stop (promise : Nat) (plan : StopPlan) (deadline : Option Nat)
  | wait (promise : Nat)
  | continuation (promise : Nat)
deriving Repr

/-- The link a task keeps alive. -/
def Job.link? : Job → Option Nat
  | update link _ => some link
  | uncache link _ => some link
  | create _ _ teardown => teardown.map Prod.fst
  | _ => none

/-- A task bears the number of the command that started it; stop attempts and updates started by
typing bear none. -/
structure Task where
  label : Option Nat
  job : Job
  aborted : Bool := false
deriving Repr

abbrev Verdict := Except LinkError Unit

inductive Report where
  | done
  | created (model : Nat)
  | updated (state : ModelState)
  | failed (e : LinkError)
  | crashed
  | aborted
  | waited (v : Verdict)
  | continued (v : Verdict)

/-- Only tables grow: a number, once given, stays with its widget, model, link, promise or task. -/
structure World where
  schedule : Schedule := {}
  host : Host
  widgets : List (Widget Nat) := []
  kept : List Nat := []
  /-- The widget whose text is read, if it still lives. -/
  latest : Option Nat := none
  registries : List Registry
  blueprint : Blueprint
  models : List PlannedModel := []
  links : List Link := []
  promises : List (Promise Verdict) := []
  tasks : List (Option Task) := []
  names : List (String × Nat) := []
  handles : List (Nat × Nat) := []
  started : List Nat := []
  sites : List Site := []
  lookups : Nat := 0
  events : List (Event Report) := []
  notices : List Notice := []

namespace World

def now (w : World) : Nat := w.schedule.now

/-- A widget lives while it is mounted or kept. -/
def alive (w : World) (widget : Nat) : Bool :=
  w.host.mounted = some widget || widget ∈ w.kept

def text (w : World) : String :=
  match (w.latest.filter w.alive).bind fun n => w.widgets[n]? with
  | some widget => widget.text
  | none => ""

/-- A link lives while a name or a task holds it. -/
def held (w : World) (link : Nat) : Bool :=
  w.names.any (fun n => n.2 = link) || w.tasks.any fun t => t.any fun t => t.job.link? = some link

def isDead (w : World) (link : Nat) : Bool := w.links[link]?.any Link.dead

/-- The link of a registry that is held and not dead, if there is one. -/
def current? (w : World) (registry : Nat) : Option Nat := do
  let r ← w.registries[registry]?
  if r.poisoned then none
  else
    let link ← r.last
    if w.held link && !w.isDead link then some link else none

/-- A stop attempt is under way that was not cancelled. -/
def stopping (w : World) (link : Nat) : Bool :=
  match w.links[link]? with
  | none => false
  | some l =>
    !l.stopPoisoned &&
      (l.stop.bind fun p => w.promises[p]?).any fun p => !p.settled && !p.cancelled

def modelActive (w : World) (model : Nat) : Bool :=
  w.models[model]?.any fun m => m.model.isActive w.now

def modifyLink (w : World) (link : Nat) (f : Link → Link) : World :=
  { w with links := w.links.modify link f }

def modifyModel (w : World) (model : Nat) (f : Model → Model) : World :=
  { w with models := w.models.modify model fun m => { m with model := f m.model } }

def note (w : World) (n : Notice) : World := { w with notices := w.notices ++ [n] }

def updatePromise (w : World) (promise : Nat)
    (f : Promise Verdict → Promise Verdict × List Nat) : World :=
  match w.promises[promise]? with
  | none => w
  | some p =>
    { w with
      promises := w.promises.set promise (f p).1
      schedule := w.schedule.wakeAll (f p).2 }

/-- A name given anew lets go of the link it had. -/
def bindName (w : World) (name : String) (link : Nat) : World :=
  { w with names := (name, link) :: w.names.filter fun n => n.1 ≠ name }

def spawn (w : World) (label : Option Nat) (job : Job) : World :=
  { w with
    tasks := w.tasks ++ [some { label, job }]
    schedule := w.schedule.wake w.tasks.length }

end World
end EditorLink
