import EditorLink.Proofs.Teardown

/-! What a task goes on with after a pause: its job is of the same kind and about the same things, and
only knows more of how far it has come. -/
namespace EditorLink

inductive Job.Follows : Job → Job → Prop
  | update (n : Nat) (phase next : UpdatePhase) (later : next ≠ .fresh) :
      Follows (.update n phase) (.update n next)
  | begun (n promise : Nat) : Follows (.uncache n none) (.uncache n (some promise))
  | tearing (n promise : Nat) : Follows (.uncache n (some promise)) (.uncache n (some promise))
  | made (registry : Nat) (name : String) (n promise : Nat) :
      Follows (.create registry name none) (.create registry name (some (n,promise)))
  | creating (registry : Nat) (name : String) (made : Nat × Nat) :
      Follows (.create registry name (some made)) (.create registry name (some made))
  | stop (promise : Nat) (plan : StopPlan) (deadline : Option Nat) (next : Nat) :
      Follows (.stop promise plan deadline) (.stop promise plan (some next))
  | wait (promise : Nat) : Follows (.wait promise) (.wait promise)
  | continuation (promise : Nat) : Follows (.continuation promise) (.continuation promise)

/-- A job that has not begun and whose first turn is more than to wait for a promise. -/
def Job.Fresh : Job → Prop
  | .update _ .fresh => True
  | .uncache _ none => True
  | .create _ _ none => True
  | .stop _ _ none => True
  | _ => False

theorem Job.Follows.not_fresh {job next : Job} (follows : job.Follows next) : ¬ next.Fresh := by
  intro fresh
  cases follows with
  | update n phase next later =>
    cases next with
    | fresh => exact later rfl
    | _ => exact fresh
  | _ => exact fresh

theorem Job.Follows.link {job next : Job} (follows : job.Follows next) (settled : Action.Settled job) :
    next.link? = job.link? := by
  cases follows with
  | made => exact settled.elim
  | _ => rfl

def Next.After (job : Job) : Next → Prop
  | .pause next => job.Follows next
  | .finish _ => True

/-- A creation pauses with its link, or ends well with its model. -/
def Next.Creates (n : Nat) : Next → Prop
  | .pause job => job.link? = some n
  | .finish report => ∃ model, report = some (.created model)

namespace Action

abbrev YieldsNext (job : Job) (a : Action Next) : Prop := Yields (Next.After job) a

theorem feed_yieldsNext (job : Job) (n : Nat) (text : String) : YieldsNext job (feed n text) :=
  .bind fun _ => .bind fun _ => .bind fun _ => yields_pure trivial

theorem startUpdate_yieldsNext (id n : Nat) (phase : UpdatePhase) :
    YieldsNext (.update n phase) (startUpdate id n) := by
  refine .bind fun _ => .bind fun _ => .bind fun w => .bind fun _ => .bind fun _ => .bind fun l =>
    .bind fun planned => ?_
  split
  · exact yields_fail _
  · split
    · exact feed_yieldsNext _ _ _
    · exact .bind fun _ => .bind fun _ => .bind fun _ => yields_pure (.update n phase _ nofun)

theorem resumeUpdate_yieldsNext (id n : Nat) (phase : UpdatePhase) :
    YieldsNext (.update n phase) (resumeUpdate id n phase) := by
  cases phase with
  | fresh =>
    refine .bind fun _ => .bind fun _ => .bind fun planned => ?_
    dsimp only
    split
    · exact startUpdate_yieldsNext id n .fresh
    · exact .bind fun _ => yields_pure (.update n .fresh .debouncing nofun)
  | debouncing => exact startUpdate_yieldsNext id n .debouncing
  | running text interrupts =>
    refine .bind fun l => .bind fun planned => ?_
    split
    · exact feed_yieldsNext _ _ _
    · exact yields_fail _

theorem waits_yieldsNext {job rest : Job} (id promise : Nat) (follows : job.Follows rest)
    {ends : Option Verdict → Action Next} (done : ∀ answer, YieldsNext job (ends answer)) :
    YieldsNext job (do
      match ← await id promise with
      | none => pure (.pause rest)
      | some answer => ends answer) := by
  refine .bind fun answer => ?_
  split
  · exact yields_pure follows
  · exact done _

theorem resumeUncache_yieldsNext (id n : Nat) (stop : Option Nat) :
    YieldsNext (.uncache n stop) (resumeUncache id n stop) := by
  have done (job : Job) (answer : Option Verdict) :
      YieldsNext job (do finishTeardown n (verdict answer); pure (.finish (some .done))) :=
    .bind fun _ => yields_pure trivial
  cases stop with
  | none => exact .bind fun promise => waits_yieldsNext id promise (.begun n promise) (done _)
  | some promise =>
    intro v next w ends
    exact waits_yieldsNext id promise (.tearing n promise) (done _) v next w ends

theorem handOver_yields {P : Next → Prop} (n : Nat) (name : String)
    (hands : ∀ model, P (.finish (some (.created model)))) : Yields P (handOver n name) := by
  refine .bind fun l => ?_
  split
  · exact .bind fun _ => yields_fail _
  · exact .bind fun l => .bind fun _ => yields_pure (hands l.model)

theorem goOn_yields {P : Next → Prop} (id registry : Nat) (name : String) (n : Nat)
    (begun : Except LinkError Nat)
    (pauses : ∀ promise, begun = .ok promise → P (.pause (.create registry name (some (n,promise)))))
    (hands : ∀ model, P (.finish (some (.created model)))) :
    Yields P (goOn id registry name n begun) := by
  cases begun with
  | error e => exact .bind fun _ => yields_fail _
  | ok promise =>
    refine .bind fun answer => ?_
    split
    · exact yields_pure (pauses promise rfl)
    · refine .bind fun outcome => ?_
      split
      · exact handOver_yields n name hands
      · exact .bind fun _ => yields_fail _

theorem goOn_creates (id registry : Nat) (name : String) (n : Nat) (begun : Except LinkError Nat) :
    Yields (Next.Creates n) (goOn id registry name n begun) :=
  goOn_yields id registry name n begun (fun _ _ => rfl) fun model => ⟨model,rfl⟩

theorem setOut_creates (id registry : Nat) (name : String) (n : Nat) :
    Yields (Next.Creates n) (setOut id registry name n) :=
  .bind fun begun => goOn_creates id registry name n begun

theorem setOut_yieldsNext (id registry : Nat) (name : String) (n : Nat) :
    YieldsNext (.create registry name none) (setOut id registry name n) :=
  .bind fun begun => goOn_yields id registry name n begun
    (fun promise _ => .made registry name n promise) fun _ => trivial

theorem resumeCreate_yieldsNext (id registry : Nat) (name : String) (teardown : Option (Nat × Nat)) :
    YieldsNext (.create registry name teardown) (resumeCreate id registry name teardown) := by
  intro v next w ends
  cases teardown with
  | none =>
    rcases ran : exec (register registry) v with ⟨fault | n,u⟩
    · rw [resumeCreate_refused ran] at ends
      cases ends
    · rw [resumeCreate_made ran] at ends
      exact setOut_yieldsNext id registry name n u next w ends
  | some made =>
    rw [resumeCreate_waiting] at ends
    refine goOn_yields id registry name made.1 (.ok made.2) (fun promise same => ?_)
      (fun _ => trivial) v next w ends
    cases same
    exact .creating registry name made

abbrev Final (a : Action Next) : Prop := Yields (fun next => ∀ job, next ≠ .pause job) a

theorem finish_final (n : Nat) (stopped : Verdict) :
    Final (do finishTeardown n stopped; pure (.finish (some .done))) :=
  .bind fun _ => yields_pure (by simp)

theorem discard_final (n : Nat) (e : LinkError) : Final (do discard n e; fail e) :=
  .bind fun _ => yields_fail e

theorem handOver_final (n : Nat) (name : String) : Final (handOver n name) :=
  handOver_yields n name (by simp)

theorem afterTeardown_final (n : Nat) (name : String) (stopped : Verdict) :
    Final (afterTeardown n name stopped) := by
  refine .bind fun outcome => ?_
  split
  · exact handOver_final n name
  · exact discard_final n _

theorem resumeStop_yieldsNext (id promise : Nat) (plan : StopPlan) (deadline : Option Nat) :
    YieldsNext (.stop promise plan deadline) (resumeStop id promise plan deadline) := by
  refine .bind fun w => ?_
  split
  · exact .bind fun _ => .bind fun _ => yields_pure trivial
  · refine .bind fun _ => Yields.onCrash (.bind fun d => .bind fun _ => .bind fun v => ?_)
    split
    · exact .bind fun _ => yields_pure (.stop promise plan deadline d)
    · split
      · exact .bind fun _ => .bind fun _ => yields_pure trivial
      · exact .bind fun _ => yields_pure trivial

theorem resume_yieldsNext (id : Nat) (job : Job) : YieldsNext job (resume id job) := by
  cases job with
  | update n phase => exact resumeUpdate_yieldsNext id n phase
  | uncache n stop => exact resumeUncache_yieldsNext id n stop
  | create registry name teardown => exact resumeCreate_yieldsNext id registry name teardown
  | stop promise plan deadline => exact resumeStop_yieldsNext id promise plan deadline
  | wait promise =>
    refine .bind fun answer => ?_
    split
    · exact yields_pure (.wait promise)
    · exact yields_pure trivial
  | continuation promise =>
    refine .bind fun answer => ?_
    split
    · exact yields_pure (.continuation promise)
    · exact yields_pure trivial

end Action
end EditorLink
