import EditorLink.Proofs.Handling

/-! How the tasks of a link are put together: what its few dealings with the hook, its end and its
handing over all keep, together with all that is done in the background, is kept by every turn of
every task that holds the link. -/
namespace EditorLink
open World

/-- The link that a teardown is about. -/
def Job.teardown? : Job → Option Nat
  | .uncache link _ => some link
  | .create _ _ teardown => teardown.map Prod.fst
  | _ => none

theorem Job.holds_of_teardown {job : Job} {n : Nat} (teardown : job.teardown? = some n) :
    job.link? = some n := by
  cases job with
  | uncache link stop => exact teardown
  | create registry name made => exact teardown
  | _ => cases teardown

/-- A teardown of the link that has begun. -/
def Job.Tears (n : Nat) (job : Job) : Prop := job.teardown? = some n ∧ job ≠ .uncache n none

/-- A relation kept by the background and by everything a task does to the given link. -/
structure Tends (n : Nat) (R : World → World → Prop) : Prop where
  frame : Frame R
  still : ∀ {v w}, Still v w → R v w
  clearHook : Action.Keeps R (Action.clearHook n)
  restore : ∀ outcome, Action.Keeps R (Action.restore n outcome)
  kill : Action.Keeps R (Action.kill n)
  handOver : ∀ name, Action.Keeps R (Action.handOver n name)

/-- A relation kept by each of the pieces that a teardown of the given link is made of, but for the clearing
of the cache. Those who may wait may be limited. -/
structure Prepares (n : Nat) (R : World → World → Prop) (who : Nat → Prop := fun _ => True) : Prop where
  frame : Frame R
  note : ∀ message, Action.Keeps R (Action.note (.teardownFailed message))
  await : ∀ id promise, who id → Action.Keeps R (Action.await id promise)
  startStop : Action.Keeps R (Action.startStop n true)
  clearHook : Action.Keeps R (Action.clearHook n)
  restore : ∀ outcome, Action.Keeps R (Action.restore n outcome)
  kill : Action.Keeps R (Action.kill n)
  handOver : ∀ name, Action.Keeps R (Action.handOver n name)

structure Serves (n : Nat) (R : World → World → Prop) (who : Nat → Prop := fun _ => True) : Prop extends
    Prepares n R who where
  uncacheModel : Action.Keeps R (Action.uncacheModel n)

theorem Tends.serves {n : Nat} {R : World → World → Prop} (tends : Tends n R) : Serves n R where
  frame := tends.frame
  note _ := (Action.note_still rfl).mono tends.still
  await id promise _ := (Action.await_still id promise).mono tends.still
  startStop := (Action.startStop_still n true).mono tends.still
  uncacheModel := (Action.uncacheModel_still n).mono tends.still
  clearHook := tends.clearHook
  restore := tends.restore
  kill := tends.kill
  handOver := tends.handOver

namespace Action

/-- How a creation goes on once its link is there and the first teardown has begun or failed. -/
def goOn (id registry : Nat) (name : String) (n : Nat) (begun : Except LinkError Nat) : Action Next :=
  match begun with
  | .error e => do
    discard n e
    fail e
  | .ok promise => do
    match ← await id promise with
    | none => pure (.pause (.create registry name (some (n,promise))))
    | some answer => afterTeardown n name (verdict answer)

/-- A creation from the moment its link is there. -/
def setOut (id registry : Nat) (name : String) (n : Nat) : Action Next := do
  goOn id registry name n (← result (beginTeardown n))

theorem resumeCreate_waiting (id registry : Nat) (name : String) (n promise : Nat) (w : World) :
    exec (resumeCreate id registry name (some (n,promise))) w =
      exec (goOn id registry name n (.ok promise)) w := rfl

theorem resumeCreate_made {id registry : Nat} {name : String} {v w : World} {n : Nat}
    (made : exec (register registry) v = (.ok n,w)) :
    exec (resumeCreate id registry name none) v = exec (setOut id registry name n) w := by
  rw [resumeCreate,setOut,exec_bind_ok made,exec_bind,exec_bind]
  rcases exec (result (beginTeardown n)) w with ⟨s,u⟩
  cases s <;> rfl

theorem resumeCreate_refused {id registry : Nat} {name : String} {v w : World} {e : Fault}
    (refused : exec (register registry) v = (.error e,w)) :
    exec (resumeCreate id registry name none) v = (.error e,w) := by
  rw [resumeCreate,exec_bind_error refused]

variable {n : Nat} {R : World → World → Prop} {who : Nat → Prop}

theorem handOver_keeps [Frame R] (name : String) (notes : Keeps R (note .killedInTeardown))
    (named : ∀ w : World, R w (w.bindName name n)) : Keeps R (handOver n name) := by
  refine (reads_link n).keeps.bind fun l => ?_
  split
  · exact notes.bind fun _ => (reads_fail _).keeps
  · exact (reads_link n).keeps.bind fun _ => (keeps_modify named).bind fun _ => (reads_pure _).keeps

/-- Where all dealings with the hook are alike, little is left to be kept. -/
theorem prepares_of_handling [Frame R] (handles : ∀ {sets v w}, Handling n sets v w → R v w)
    (named : ∀ (w : World) name, R w (w.bindName name n))
    (awaits : ∀ id promise, who id → Keeps R (await id promise)) (starts : Keeps R (startStop n true)) :
    Prepares n R who := by
  have noted {notice : Notice} (other : notice.isUpdating = false) : Keeps R (note notice) := fun w =>
    handles (show Handling n false w _ from handling_note w other)
  exact
    { frame := inferInstance
      note := fun _ => noted rfl
      await := awaits
      startStop := starts
      clearHook := clearHook_handling.mono handles
      restore := fun outcome => (restore_handling outcome).mono handles
      kill := kill_handling.mono handles
      handOver := fun name => handOver_keeps name (noted rfl) fun w => named w name }

theorem serves_of_handling [Frame R] (handles : ∀ {sets v w}, Handling n sets v w → R v w)
    (named : ∀ (w : World) name, R w (w.bindName name n))
    (awaits : ∀ id promise, who id → Keeps R (await id promise)) (starts : Keeps R (startStop n true))
    (clears : Keeps R (uncacheModel n)) : Serves n R who :=
  { prepares_of_handling handles named awaits starts with uncacheModel := clears }

theorem failedTeardown_keeps (prepares : Prepares n R who) (e : LinkError) :
    Keeps R (finishTeardown n (.error e)) := by
  have := prepares.frame
  exact Keeps.bind (reads_fail _).keeps.result prepares.restore

theorem finishTeardown_keeps (serves : Serves n R who) (stopped : Verdict) :
    Keeps R (finishTeardown n stopped) := by
  have := serves.frame
  cases stopped with
  | error e => exact failedTeardown_keeps serves.toPrepares e
  | ok _ => exact Keeps.bind serves.uncacheModel.result serves.restore

theorem beginTeardown_keeps (prepares : Prepares n R who) : Keeps R (beginTeardown n) := by
  have := prepares.frame
  refine prepares.clearHook.bind fun _ => prepares.startStop.result.bind fun s => ?_
  split
  · exact (reads_pure _).keeps
  · exact (prepares.restore _).bind fun _ => (reads_fail _).keeps

theorem discard_keeps (prepares : Prepares n R who) (e : LinkError) : Keeps R (discard n e) := by
  have := prepares.frame
  exact (prepares.note _).bind fun _ => prepares.kill.bind fun _ => (reads_fail _).keeps

theorem resumeUncache_keeps (serves : Serves n R who) (id : Nat) (stop : Option Nat)
    (mine : who id := by exact trivial) :
    Keeps R (resumeUncache id n stop) := by
  have := serves.frame
  have waits (promise : Nat) : Keeps R (do
      match ← await id promise with
      | none => pure (.pause (.uncache n (some promise)))
      | some answer => do
        finishTeardown n (verdict answer)
        pure (.finish (some .done)) : Action Next) := by
    refine (serves.await id promise mine).bind fun answer => ?_
    split
    · exact (reads_pure _).keeps
    · exact (finishTeardown_keeps serves _).bind fun _ => (reads_pure _).keeps
  cases stop with
  | some promise => exact (reads_pure promise).keeps.bind waits
  | none => exact (beginTeardown_keeps serves.toPrepares).bind waits

theorem concludeTeardown_keeps (prepares : Prepares n R who) (name : String)
    (outcome : Except LinkError Unit) : Keeps R (match outcome with
      | .ok _ => handOver n name
      | .error e => do
        discard n e
        fail e) := by
  have := prepares.frame
  split
  · exact prepares.handOver name
  · exact (discard_keeps prepares _).bind fun _ => (reads_fail _).keeps

theorem afterTeardown_keeps (prepares : Prepares n R who) (name : String) {stopped : Verdict}
    (finishes : Keeps R (finishTeardown n stopped)) : Keeps R (afterTeardown n name stopped) := by
  have := prepares.frame
  exact finishes.result.bind (concludeTeardown_keeps prepares name)

theorem goOn_keeps (serves : Serves n R who) (id registry : Nat) (name : String)
    (begun : Except LinkError Nat) (mine : who id := by exact trivial) : Keeps R (goOn id registry name n begun) := by
  have := serves.frame
  cases begun with
  | error e => exact (discard_keeps serves.toPrepares e).bind fun _ => (reads_fail _).keeps
  | ok promise =>
    refine (serves.await id promise mine).bind fun answer => ?_
    split
    · exact (reads_pure _).keeps
    · exact afterTeardown_keeps serves.toPrepares name (finishTeardown_keeps serves _)

theorem resumeCreate_keeps (serves : Serves n R who) (id registry : Nat) (name : String)
    (promise : Nat) (mine : who id := by exact trivial) : Keeps R (resumeCreate id registry name (some (n,promise))) := by
  intro w
  rw [resumeCreate_waiting]
  exact goOn_keeps serves id registry name _ mine w

theorem setOut_keeps (serves : Serves n R who) (id registry : Nat) (name : String)
    (mine : who id := by exact trivial) :
    Keeps R (setOut id registry name n) := by
  have := serves.frame
  exact (beginTeardown_keeps serves.toPrepares).result.bind fun begun =>
    goOn_keeps serves id registry name begun mine

theorem resumeCreate_fresh_keeps [Frame R] (registry : Nat) (registers : Keeps R (register registry))
    (serves : ∀ n, Serves n R who) (id : Nat) (name : String) (mine : who id := by exact trivial) :
    Keeps R (resumeCreate id registry name none) := by
  intro w
  have first := registers w
  rcases ran : exec (register registry) w with ⟨fault | n,v⟩
  · rw [ran] at first
    rw [resumeCreate_refused ran]
    exact first
  · rw [ran] at first
    rw [resumeCreate_made ran]
    exact Frame.trans first (setOut_keeps (serves n) id registry name mine v)

/-- A job that holds its link from the start, or needs none. -/
def Settled : Job → Prop
  | .create _ _ none => False
  | _ => True

theorem not_settled {job : Job} (fresh : ¬ Settled job) :
    ∃ registry name, job = .create registry name none := by
  cases job with
  | create registry name teardown =>
    cases teardown with
    | none => exact ⟨registry,name,rfl⟩
    | some _ => exact absurd trivial fresh
  | _ => exact absurd trivial fresh

/-- What is kept by the pieces of its job is kept by every turn of a task. -/
theorem resume_serves [Frame R] (id : Nat) (job : Job)
    (updates : ∀ n phase, job = .update n phase → Keeps R (resumeUpdate id n phase))
    (serves : ∀ n, job.teardown? = some n → Serves n R who)
    (creates : ∀ registry name, job = .create registry name none →
      Keeps R (resumeCreate id registry name none))
    (stops : ∀ promise plan deadline, job = .stop promise plan deadline →
      Keeps R (resumeStop id promise plan deadline))
    (awaits : ∀ promise, Keeps R (await id promise)) (mine : who id := by exact trivial) :
    Keeps R (resume id job) := by
  cases job with
  | update n phase => exact updates n phase rfl
  | uncache n stop => exact resumeUncache_keeps (serves n rfl) id stop mine
  | create registry name teardown =>
    cases teardown with
    | none => exact creates registry name rfl
    | some made => exact resumeCreate_keeps (serves made.1 rfl) id registry name made.2 mine
  | stop promise plan deadline => exact stops promise plan deadline rfl
  | wait promise => exact resumeWait_keeps (awaits promise)
  | continuation promise => exact resumeContinuation_keeps (awaits promise)

/-- What is kept by the background, by updates and by what a task does to its link is kept by every
turn of every task that has its link. -/
theorem resume_keeps [Frame R] (id : Nat) {job : Job} (settled : Settled job)
    (still : ∀ {v w}, Still v w → R v w)
    (updates : ∀ n phase, job = .update n phase → Keeps R (resumeUpdate id n phase))
    (tends : ∀ n, job.link? = some n → Tends n R) : Keeps R (resume id job) := by
  refine resume_serves id job updates (fun n tears => (tends n (Job.holds_of_teardown tears)).serves)
    ?_ ?_ ?_
  · intro registry name fresh
    rw [fresh] at settled
    exact settled.elim
  · intro promise plan deadline _
    exact (resumeStop_still id promise plan deadline).mono still
  · intro promise
    exact (await_still id promise).mono still

end Action
end EditorLink
