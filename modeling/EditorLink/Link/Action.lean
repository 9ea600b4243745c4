import EditorLink.Link.World

/-! What callers and tasks can do with a link at one instant. An action may fail with an error, and
a collaborator may crash in the middle of it: what was done up to there stays done. -/
namespace EditorLink

inductive Fault where
  | error (e : LinkError)
  | crash

abbrev Action := ExceptT Fault (StateM World)

namespace Action
variable {α : Type}

def fail (e : LinkError) : Action α := throw (.error e)

def crash : Action α := throw .crash

def note (n : Notice) : Action Unit := modify fun w => w.note n

/-- Crashes where a collaborator is made to. -/
def visit (site : Site) : Action Unit := do
  if site ∈ (← get).sites then crash

/-- An error becomes a value; a crash does not. -/
def result (body : Action α) : Action (Except LinkError α) :=
  tryCatch (Except.ok <$> body) fun fault =>
    match fault with
    | .error e => pure (.error e)
    | .crash => crash

/-- The second action sees to what a crash of the first one breaks. -/
def onCrash (body : Action α) (mend : Action Unit) : Action α :=
  tryCatch body fun fault =>
    match fault with
    | .error e => fail e
    | .crash => do mend; crash

def ofExcept : Except LinkError α → Action α
  | .ok a => pure a
  | .error e => fail e

/-- A link that is named always exists; were it missing, the action would crash. -/
def link (n : Nat) : Action Link := do
  match (← get).links[n]? with
  | some l => pure l
  | none => crash

def modifyLink (n : Nat) (f : Link → Link) : Action Unit := modify fun w => w.modifyLink n f

def ensureAlive (n : Nat) : Action Unit := do
  if (← link n).dead then fail .killed

/-- Runs with the hook locked: a crash inside leaves the lock poisoned. -/
def withHook (n : Nat) (body : Action α) : Action α := do
  if (← link n).hookPoisoned then fail .lockPoisoned
  else onCrash body (modifyLink n fun l => { l with hookPoisoned := true })

def lookup (id : String) (w : World) : Lookup :=
  if .find ∈ w.sites then .crash else .answer (w.host.find? id)

/-- The widget of the link's slot, if there is one. -/
def tryResolve (n : Nat) : Action (Option Nat) := do
  let l ← link n
  let w ← get
  let (r, slot) := l.slot.tryResolve w.alive (lookup l.slot.id w)
  modifyLink n fun l => { l with slot := slot }
  if r.looked then modify fun w => { w with lookups := w.lookups + 1 }
  match r with
  | .remembered widget => pure (some widget)
  | .found widget => do
    note (.widgetResolved slot.id)
    pure (some widget)
  | .missing => pure none
  | .crashed => crash
  | .poisoned => fail .lockPoisoned

def resolve (n : Nat) : Action Nat := do
  match ← tryResolve n with
  | some widget => pure widget
  | none => fail (.editorUnavailable (← link n).slot.id)

def setHook (widget : Nat) (hook : Option Nat) : Action Unit := do
  visit .hook
  modify fun w => { w with widgets := w.widgets.modify widget fun x => x.setHook hook }

def attach (n : Nat) : Action Unit := do
  let widget ← resolve n
  setHook widget (some n)
  note (.listenerAttached (← link n).slot.id)

/-- Where no widget is found there is nothing to clear. -/
def detach (n : Nat) : Action Unit := do
  match ← tryResolve n with
  | some widget => do
    setHook widget none
    note (.listenerDetached (← link n).slot.id)
  | none => pure ()

def isLive (n : Nat) : Action Bool := do
  ensureAlive n
  return (← link n).live

def modelOf (n : Nat) : Action Nat := do
  ensureAlive n
  return (← link n).model

/-- The mode is unchanged unless the hook could be set or cleared. -/
def setLive (n : Nat) (live : Bool) : Action Unit :=
  withHook n do
    ensureAlive n
    if live then attach n else detach n
    modifyLink n fun l => { l with live := live }
    note (.liveChanged live)

/-- Ends the link for good. Only the first time is anything done. -/
def kill (n : Nat) : Action Unit :=
  withHook n do
    if (← link n).dead then pure ()
    else do
      modifyLink n fun l => { l with dead := true }
      note .killed
      detach n

def cancelPromise (p : Nat) : Action Unit := modify fun w => w.updatePromise p Promise.cancel

/-- Cancels the attempt before. -/
def supersede (n : Nat) : Action Unit := do
  match (← link n).stop with
  | none => pure ()
  | some p => do
    modifyLink n fun l => { l with stop := none }
    if !((← get).promises[p]?.any Promise.settled) then note .superseding
    cancelPromise p

/-- Starts a stop attempt in place of the one before, and gives its promise. Where nothing can run
tasks it crashes once the attempt before is cancelled. -/
def startStop (n : Nat) (canSpawn : Bool) : Action Nat := do
  ensureAlive n
  if (← link n).stopPoisoned then fail .lockPoisoned
  supersede n
  if canSpawn then do
    let w ← get
    let l ← link n
    let promise := w.promises.length
    let plan : StopPlan :=
      ⟨l.model, l.config.timeout.toMillis.toNat, l.config.interval.toMillis.toNat⟩
    set ({ w with promises := w.promises ++ [({} : Promise Verdict)] }.spawn none
      (.stop promise plan none))
    modifyLink n fun l => { l with stop := some promise }
    pure promise
  else do
    modifyLink n fun l => { l with stopPoisoned := true }
    crash

/-- A teardown begins by clearing the hook. -/
def clearHook (n : Nat) : Action Unit :=
  withHook n do
    ensureAlive n
    detach n

def uncacheModel (n : Nat) : Action Unit := do
  visit .modelUncache
  let model := (← link n).model
  match (← get).models[model]? with
  | none => crash
  | some m => match m.model.uncache with
    | .error e => fail (.uncache e.message)
    | .ok _ => do
      modify fun w => w.modifyModel model fun m => m.uncache.toOption.getD m
      note .cacheCleared

/-- A teardown ends by putting the hook back if the link is still alive and live. An error from
before wins over one from here, unless the hook cannot be locked. -/
def restore (n : Nat) (outcome : Verdict) : Action Unit := do
  let restored ← withHook n do
    let l ← link n
    if !l.dead && l.live then result (attach n) else pure (.ok ())
  ofExcept outcome
  ofExcept restored

/-- What is left of a teardown once its stop attempt has an outcome. -/
def finishTeardown (n : Nat) (stopped : Verdict) : Action Unit := do
  let outcome ← result do
    match stopped with
    | .error e => fail (.uncacheBecause e)
    | .ok _ => uncacheModel n
  restore n outcome

/-- Clears the hook and starts a stop attempt, whose promise it gives. -/
def beginTeardown (n : Nat) : Action Nat := do
  clearHook n
  match ← result (startStop n true) with
  | .ok promise => pure promise
  | .error e => do
    restore n (.error e)
    fail e

/-- Makes a link with a new model, unless the registry has one that is held and not dead. -/
def register (registry : Nat) : Action Nat := do
  let w ← get
  match w.registries[registry]? with
  | none => crash
  | some r =>
    if r.poisoned then fail .lockPoisoned
    else if (w.current? registry).isSome then fail .alreadyExists
    else do
      onCrash (visit .factory) (modify fun w =>
        { w with registries := w.registries.modify registry fun r => { r with poisoned := true } })
      let n := w.links.length
      let l : Link :=
        { model := w.models.length, config := r.config, slot := { id := r.config.editorId }
          live := r.config.live }
      modify fun w =>
        { w with
          models := w.models ++ [w.blueprint.build w.now]
          links := w.links ++ [l]
          registries := w.registries.modify registry fun r => { r with last := some n } }
      note (.created r.config.editorId)
      pure n

/-- A link whose first teardown failed is killed, and the error is passed on. -/
def discard (n : Nat) (e : LinkError) : Action Unit := do
  note (.teardownFailed e.message)
  kill n
  fail e

end Action
end EditorLink
