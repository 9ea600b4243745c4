import EditorLink.Link.Action

/-! Tasks: how each kind of job goes on from one pause to the next. -/
namespace EditorLink

/-- What a stop attempt does with the answer of the model. -/
inductive Check where
  | settle (v : Verdict)
  | sleep (ms : Nat)

/-- The last sleep is cut so that the last check falls on the deadline. -/
def StopPlan.check (plan : StopPlan) (deadline now : Nat) (active : Bool) : Check :=
  if !active then .settle (.ok ())
  else if deadline ≤ now then .settle (.error (.stopTimedOut plan.timeout))
  else .sleep (min plan.poll (deadline - now))

/-- Where a turn of a task ends. A job may end with nothing to report. -/
inductive Next where
  | pause (job : Job)
  | finish (report : Option Report)

namespace Action

def now : Action Nat := do return (← get).now

def sleep (id ms : Nat) : Action Unit :=
  modify fun w => { w with schedule := w.schedule.sleep id ms }

def modifyPromise (p : Nat) (f : Promise Verdict → Promise Verdict) : Action Unit :=
  modify fun w => { w with promises := w.promises.modify p f }

def endPromise (p : Nat) (value : Option Verdict) : Action Unit :=
  modify fun w => w.updatePromise p fun x => x.finish value

/-- What a promise holds for an observer; one that has to wait is told when that changes. -/
def await (id p : Nat) : Action (Option (Option Verdict)) := do
  match (← get).promises[p]?.bind Promise.answer? with
  | none => do
    modifyPromise p fun x => x.observe id
    pure none
  | some answer => pure (some answer)

def model (n : Nat) : Action PlannedModel := do
  match (← get).models[n]? with
  | some m => pure m
  | none => crash

/-- Feeds the model, and gives what it made of the text. -/
def feed (n : Nat) (text : String) : Action Next := do
  let m ← model n
  let time ← now
  modify fun w => w.modifyModel n fun m => (m.update time text).2
  pure (.finish (some (.updated (m.model.update time text).1)))

/-- Reads the text and hands it to the model, which may fail at once or take its time. -/
def startUpdate (id link : Nat) : Action Next := do
  ensureAlive link
  visit .getText
  let text := (← get).text
  note (.updating text.utf8ByteSize)
  visit .update
  let n := (← Action.link link).model
  let planned ← model n
  match planned.failsUpdate with
  | some e => fail (.model e)
  | none =>
    if planned.updateMillis = 0 then feed n text
    else do
      let time ← now
      modify fun w => w.modifyModel n fun m => m.busyFor time planned.updateMillis
      sleep id planned.updateMillis
      pure (.pause (.update link (.running text planned.model.interrupts)))

/-- An update waits out the model's interval first. An interrupt while it runs makes it fail. -/
def resumeUpdate (id link : Nat) : UpdatePhase → Action Next
  | .fresh => do
    ensureAlive link
    let planned ← model (← Action.link link).model
    let wait := planned.model.interval.toMillis
    if wait = 0 then startUpdate id link
    else do
      sleep id wait
      pure (.pause (.update link .debouncing))
  | .debouncing => startUpdate id link
  | .running text interrupts => do
    let n := (← Action.link link).model
    if (← model n).model.interrupts = interrupts then feed n text
    else fail (.model .interrupted)

/-- The verdict of an attempt that gave none is that it was superseded. -/
def verdict (answer : Option Verdict) : Verdict := answer.getD (.error .superseded)

def resumeUncache (id link : Nat) (stop : Option Nat) : Action Next := do
  let promise ← match stop with
    | some promise => pure promise
    | none => beginTeardown link
  match ← await id promise with
  | none => pure (.pause (.uncache link (some promise)))
  | some answer => do
    finishTeardown link (verdict answer)
    pure (.finish (some .done))

/-- The caller holds the new link from the moment its first teardown is over. -/
def handOver (link : Nat) (name : String) : Action Next := do
  if (← Action.link link).dead then do
    note .killedInTeardown
    fail .killed
  else do
    let model := (← Action.link link).model
    modify fun w => w.bindName name link
    pure (.finish (some (.created model)))

def afterTeardown (link : Nat) (name : String) (stopped : Verdict) : Action Next := do
  match ← result (finishTeardown link stopped) with
  | .ok _ => handOver link name
  | .error e => do
    discard link e
    fail e

def resumeCreate (id registry : Nat) (name : String) (teardown : Option (Nat × Nat)) :
    Action Next := do
  let (link, begun) ← match teardown with
    | some (link, promise) => pure (link, .ok promise)
    | none => do
      let link ← register registry
      pure (link, ← result (beginTeardown link))
  match begun with
  | .error e => do
    discard link e
    fail e
  | .ok promise => match ← await id promise with
    | none => pure (.pause (.create registry name (some (link, promise))))
    | some answer => afterTeardown link name (verdict answer)

/-- The model is interrupted before the first check. -/
def stopDeadline (plan : StopPlan) : Option Nat → Action Nat
  | some deadline => pure deadline
  | none => do
    visit .interrupt
    modify fun w => w.modifyModel plan.model Model.interrupt
    return (← now) + plan.timeout

def checkStop (id promise : Nat) (plan : StopPlan) (deadline : Nat) : Action Next := do
  visit .isActive
  let w ← get
  match plan.check deadline w.now (w.modelActive plan.model) with
  | .sleep ms => do
    sleep id ms
    pure (.pause (.stop promise plan (some deadline)))
  | .settle v => do
    if v matches .error _ then note (.stopTimedOut plan.timeout)
    endPromise promise (some v)
    pure (.finish none)

/-- A cancelled attempt leaves the model alone. One that crashes ends without a verdict. -/
def resumeStop (id promise : Nat) (plan : StopPlan) (deadline : Option Nat) : Action Next := do
  if (← get).promises[promise]?.any Promise.cancelled then do
    note .computationDropped
    endPromise promise none
    pure (.finish none)
  else do
    modifyPromise promise fun x => x.attend id
    onCrash (do checkStop id promise plan (← stopDeadline plan deadline)) (endPromise promise none)

def resumeWait (id promise : Nat) : Action Next := do
  match ← await id promise with
  | none => pure (.pause (.wait promise))
  | some answer => pure (.finish (some (.waited (verdict answer))))

/-- A continuation runs on a verdict only. -/
def resumeContinuation (id promise : Nat) : Action Next := do
  match ← await id promise with
  | none => pure (.pause (.continuation promise))
  | some answer => pure (.finish (answer.map .continued))

def resume (id : Nat) : Job → Action Next
  | .update link phase => resumeUpdate id link phase
  | .uncache link stop => resumeUncache id link stop
  | .create registry name teardown => resumeCreate id registry name teardown
  | .stop promise plan deadline => resumeStop id promise plan deadline
  | .wait promise => resumeWait id promise
  | .continuation promise => resumeContinuation id promise

end Action

namespace World

def setJob (w : World) (id : Nat) (job : Job) : World :=
  { w with tasks := w.tasks.modify id fun t => t.map fun t => { t with job } }

def remove (w : World) (id : Nat) : World :=
  { w with tasks := w.tasks.set id none, schedule := w.schedule.forget id }

/-- Reports the end of a task that someone started, and notes a failed update that typing
started. -/
def report (w : World) (label : Option Nat) (report : Report) : World :=
  match label, report with
  | some label, _ => { w with events := w.events ++ [⟨w.now, label, report⟩] }
  | none, .failed e => w.note (.liveUpdateFailed e.message)
  | none, _ => w

def pollAborted (w : World) (id : Nat) (task : Task) : World :=
  match task.job with
  | .continuation _ => w.remove id
  | _ => (w.report task.label .aborted).remove id

/-- One turn of a task. -/
def poll (id : Nat) (w : World) : World :=
  match w.tasks[id]? with
  | some (some task) =>
    if task.aborted then w.pollAborted id task
    else match (Action.resume id task.job).run.run w with
      | (.ok (.pause job), w) => w.setJob id job
      | (.ok (.finish none), w) => w.remove id
      | (.ok (.finish (some r)), w) => (w.report task.label r).remove id
      | (.error (.error e), w) => (w.report task.label (.failed e)).remove id
      | (.error .crash, w) => (w.report task.label .crashed).remove id
  | _ => w

instance : Scheduled World where
  schedule := World.schedule
  withSchedule w schedule := { w with schedule }
  poll := poll
  turns w := 16 * w.tasks.length + 16

end World
end EditorLink
