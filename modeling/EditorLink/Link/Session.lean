import EditorLink.Link.Task

/-! What a caller can do with links, what happens around them, and what each comes to. -/
namespace EditorLink

/-- The setting a script starts in. Unless `mounted` is off there is an editor with the given text.
Widgets crash only where `widgetsCrash` allows it. -/
structure Setting where
  configs : List Config := [{}]
  hostId : String := "editor"
  mounted : Bool := true
  text : String := ""
  blueprint : Blueprint := {}
  widgetsCrash : Bool := false

def Setting.start (s : Setting) : World where
  host := { id := s.hostId, mounted := if s.mounted then some 0 else none }
  widgets := if s.mounted then [{ text := s.text }] else []
  latest := if s.mounted then some 0 else none
  registries := s.configs.map fun config => { config }
  blueprint := s.blueprint

/-- Every registry needs a configuration that keeps the rules; the first that does not is
reported. -/
def Setting.world (s : Setting) : Except LinkError World := do
  for c in s.configs do
    Except.mapError LinkError.config c.validate
  return s.start

/-- What happens around a link: editors come and go, are typed in, and models change their ways. -/
inductive Outside where
  | factory (blueprint : Blueprint)
  | crash (site : Site) (on : Bool)
  | mount (text : String) (keep : Bool)
  | unmount
  | keep (editor : Nat)
  | remount (editor : Nat)
  | release (editor : Nat)
  /-- Typing may happen where no tasks can be started. -/
  | type (editor : Nat) (text : String) (canSpawn : Bool)
  | busy (model ms : Nat)
  | stall (model : Nat)
  | settle (model : Nat)
  | failUncache (model : Nat) (on : Bool)
  | failUpdate (model : Nat) (e : Option ModelError)
  | updateMillis (model ms : Nat)

inductive Command where
  | advance (ms : Nat)
  | outside (change : Outside)
  | create (name : String) (registry : Nat)
  | current (name : Option String) (registry : Nat)
  | registryConfig (registry : Nat)
  | live (link : String)
  | setLive (link : String) (on : Bool)
  | kill (link : String)
  | model (link : String)
  | isDead (link : String)
  | status (link : String)
  | debug (link : String)
  | same (link other : String)
  | clone (link name : String)
  | drop (link : String)
  | update (link : String)
  | uncache (link : String)
  | stop (link : String) (canSpawn : Bool)
  | wait (handle : Nat)
  | continuation (handle : Nat)
  | cancel (handle : Nat)
  | dropHandle (handle : Nat)
  | abort (task : Nat)

/-- What a link tells about itself besides its id and the time it was made. -/
structure Status where
  live : Bool
  dead : Bool
  stopping : Bool
deriving DecidableEq, Repr

/-- The names of everything in a written status, sorted. -/
def Status.fields : List String := ["created_at", "dead", "id", "live", "stopping"]

inductive Reply where
  | nothing
  | skipped
  | done
  | failed (e : LinkError)
  | crashed
  | number (n : Nat)
  | flag (b : Bool)
  | live (b : Bool)
  | model (n : Option Nat)
  | config (c : Config)
  | status (s : Status)
  | text (s : String)

namespace World

def status? (w : World) (link : Nat) : Option Status :=
  w.links[link]?.map fun l => ⟨l.live, l.dead, w.stopping link⟩

def debug (l : Link) : String :=
  let flag (b : Bool) := if b then "true" else "false"
  "Orchestrator \x7b id: ID, editor: " ++ l.slot.debug ++ ", live: " ++ flag l.live ++
    ", dead: " ++ flag l.dead ++ " \x7d"

/-- Runs an action for a caller. -/
def act {α : Type} (w : World) (body : Action α) (reply : α → Reply) : Reply × World :=
  match body.run.run w with
  | (.ok a, w) => (reply a, w)
  | (.error (.error e), w) => (.failed e, w)
  | (.error .crash, w) => (.crashed, w)

/-- Starts a task that bears the command's number. -/
def start (w : World) (number : Nat) (job : Job) : Reply × World :=
  (.nothing, { w with started := w.started ++ [number] }.spawn (some number) job)

/-- Input reaches a link only while something holds it. -/
def input (w : World) (link : Nat) (canSpawn : Bool) : World :=
  if !w.held link then w
  else if canSpawn then w.spawn none (.update link .fresh)
  else w.note .inputSkipped

/-- The text is there before the hook runs. -/
def typeIn (w : World) (editor : Nat) (text : String) (canSpawn : Bool) : World :=
  let w := { w with widgets := w.widgets.modify editor fun x => x.type text }
  match w.widgets[editor]?.bind Widget.hook with
  | some link => w.input link canSpawn
  | none => w

def mount (w : World) (editor : Nat) : World :=
  { w with host := { w.host with mounted := some editor }, latest := some editor }

def keep (w : World) (editor : Nat) : World :=
  if editor ∈ w.kept then w else { w with kept := w.kept ++ [editor] }

def abort (w : World) (label : Nat) : World :=
  match w.tasks.findIdx? fun t => t.any fun t => t.label = some label with
  | none => w
  | some id =>
    { w with
      tasks := w.tasks.modify id fun t => t.map fun t => { t with aborted := true }
      schedule := w.schedule.wake id }

def onModel (w : World) (n : Nat) (f : PlannedModel → PlannedModel) : Reply × World :=
  if n < w.models.length then (.nothing, { w with models := w.models.modify n f })
  else (.skipped, w)

def onEditor (w : World) (n : Nat) (f : World → World) : Reply × World :=
  if w.alive n then (.nothing, f w) else (.skipped, w)

def onLink (w : World) (name : String) (f : Nat → Reply × World) : Reply × World :=
  match w.names.lookup name with
  | some link => f link
  | none => (.skipped, w)

def onHandle (w : World) (handle : Nat) (f : Nat → Reply × World) : Reply × World :=
  match w.handles.lookup handle with
  | some promise => f promise
  | none => (.skipped, w)

def onRegistry (w : World) (n : Nat) (f : Registry → Reply × World) : Reply × World :=
  match w.registries[n]? with
  | some r => f r
  | none => (.skipped, w)

def stopFor (w : World) (number link : Nat) (canSpawn : Bool) : Reply × World :=
  match (Action.startStop link canSpawn).run.run w with
  | (.ok promise, w) => (.done, { w with handles := w.handles ++ [(number, promise)] })
  | (.error (.error e), w) => (.failed e, w)
  | (.error .crash, w) => (.crashed, w)

def currentFor (w : World) (name : Option String) (registry : Nat) : Reply × World :=
  match w.current? registry with
  | none => (.model none, w)
  | some link =>
    let model := w.links[link]?.map Link.model
    match name with
    | some name => (.model model, w.bindName name link)
    | none => (.model model, w)

def change (w : World) : Outside → Reply × World
  | .factory blueprint => (.nothing, { w with blueprint })
  | .crash site on =>
    let others := w.sites.filter (· ≠ site)
    (.nothing, { w with sites := if on then others ++ [site] else others })
  | .mount text keeps =>
    let editor := w.widgets.length
    let w := { w with widgets := w.widgets ++ [({ text } : Widget Nat)] }.mount editor
    (.number editor, if keeps then w.keep editor else w)
  | .unmount => (.nothing, { w with host := { w.host with mounted := none } })
  | .keep editor => w.onEditor editor fun w => w.keep editor
  | .remount editor => w.onEditor editor fun w => w.mount editor
  | .release editor =>
    (.flag (editor ∈ w.kept), { w with kept := w.kept.filter (· ≠ editor) })
  | .type editor text canSpawn => w.onEditor editor fun w => w.typeIn editor text canSpawn
  | .busy model ms => w.onModel model fun m => { m with model := m.model.busyFor w.now ms }
  | .stall model => w.onModel model fun m => { m with model := m.model.stall }
  | .settle model => w.onModel model fun m => { m with model := m.model.settle }
  | .failUncache model on =>
    w.onModel model fun m => { m with model := { m.model with failsUncache := on } }
  | .failUpdate model e => w.onModel model fun m => { m with failsUpdate := e }
  | .updateMillis model ms => w.onModel model fun m => { m with updateMillis := ms }

/-- Carries out the command with the given number. -/
def perform (w : World) (number : Nat) : Command → Reply × World
  | .advance ms => (.nothing, Scheduled.advance ms w)
  | .outside change => w.change change
  | .create name registry =>
    w.onRegistry registry fun _ => w.start number (.create registry name none)
  | .current name registry => w.onRegistry registry fun _ => w.currentFor name registry
  | .registryConfig registry => w.onRegistry registry fun r => (.config r.config, w)
  | .live link => w.onLink link fun n => w.act (Action.isLive n) .live
  | .setLive link on => w.onLink link fun n => w.act (Action.setLive n on) fun _ => .done
  | .kill link => w.onLink link fun n => w.act (Action.kill n) fun _ => .done
  | .model link => w.onLink link fun n => w.act (Action.modelOf n) fun m => .model (some m)
  | .isDead link => w.onLink link fun n => (.flag (w.isDead n), w)
  | .status link => w.onLink link fun n => ((w.status? n).elim .skipped .status, w)
  | .debug link => w.onLink link fun n => (w.links[n]?.elim .skipped fun l => .text (debug l), w)
  | .same link other =>
    w.onLink link fun n => w.onLink other fun m => (.flag (n = m), w)
  | .clone link name => w.onLink link fun n => (.nothing, w.bindName name n)
  | .drop link =>
    w.onLink link fun _ => (.nothing, { w with names := w.names.filter fun n => n.1 ≠ link })
  | .update link => w.onLink link fun n => w.start number (.update n .fresh)
  | .uncache link => w.onLink link fun n => w.start number (.uncache n none)
  | .stop link canSpawn => w.onLink link fun n => w.stopFor number n canSpawn
  | .wait handle => w.onHandle handle fun p => w.start number (.wait p)
  | .continuation handle => w.onHandle handle fun p => w.start number (.continuation p)
  | .cancel handle => w.onHandle handle fun p => (.nothing, w.updatePromise p Promise.cancel)
  | .dropHandle handle =>
    (.flag (w.handles.lookup handle).isSome,
      { w with handles := w.handles.filter fun h => h.1 ≠ handle })
  | .abort task => if task ∈ w.started then (.nothing, w.abort task) else (.skipped, w)

end World
end EditorLink
