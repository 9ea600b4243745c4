import EditorLink.Proofs.Alongside
import EditorLink.Proofs.Move

/-! One turn of a task in two worlds. -/
namespace EditorLink
open World EditorLink.Action

variable {s : Split} {v : World} {side : Bool} {e d : Marks} {n m i j p q : Nat}

namespace Action

theorem resumeUpdate_parallel (task : Stands side e.tasks i j) (stands : Stands side e.links n m) (phase : UpdatePhase) :
    Parallel s v side (fun d => NextAlike s d side) e (resumeUpdate i n phase) (resumeUpdate j m phase) := by
  cases phase with
  | fresh =>
    refine (ensureAlive_parallel stands).bind fun d _ _ grows _ => ?_
    refine (link_parallel (grows.link stands)).bind fun c l k more alike => ?_
    refine (model_parallel alike.model).bind fun b planned _ next same => ?_
    cases same
    have grows := grows.trans (more.trans next)
    dsimp only
    split
    · exact startUpdate_parallel (grows.task task) (grows.link stands)
    · exact (sleep_parallel (grows.task task) _).bind fun _ _ _ last _ =>
        .gives (.pause (.update ((grows.trans last).link stands) .debouncing))
  | debouncing => exact startUpdate_parallel task stands
  | running text interrupts =>
    refine (link_parallel stands).bind fun d l k grows alike => ?_
    refine (model_parallel alike.model).bind fun c planned _ more same => ?_
    cases same
    split
    · exact feed_parallel (more.model alike.model) text
    · exact .fails _

theorem waits_parallel (task : Stands side e.tasks i j) (stands : Stands side e.links n m)
    (promise : Stands side e.promises p q) :
    Parallel s v side (fun d => NextAlike s d side) e
      (do match ← await i p with
        | none => pure (.pause (.uncache n (some p)))
        | some answer => do
          finishTeardown n (verdict answer)
          pure (.finish (some .done)))
      (do match ← await j q with
        | none => pure (.pause (.uncache m (some q)))
        | some answer => do
          finishTeardown m (verdict answer)
          pure (.finish (some .done))) := by
  refine (await_parallel task promise).bind fun c x y grows same => ?_
  cases same
  cases x with
  | none => exact .gives (.pause (.uncache (grows.link stands) (.some (grows.promise promise))))
  | some answer =>
    exact (finishTeardown_parallel (grows.link stands) _).bind fun _ _ _ _ _ =>
      .gives (.finish (.some (.same _ fun _ same => by cases same)))

theorem resumeUncache_parallel (task : Stands side e.tasks i j) (stands : Stands side e.links n m) {x y : Option Nat}
    (stop : Option.Rel (Stands side e.promises) x y) :
    Parallel s v side (fun d => NextAlike s d side) e (resumeUncache i n x) (resumeUncache j m y) := by
  cases stop with
  | none =>
    exact (beginTeardown_parallel stands).bind fun d p q grows promise =>
      waits_parallel (grows.task task) (grows.link stands) promise
  | some promise =>
    exact (Parallel.gives (P := fun d => Stands side d.promises) promise).bind fun d p q grows promise =>
      waits_parallel (grows.task task) (grows.link stands) promise

theorem handOver_parallel (stands : Stands side e.links n m) {name : String} (own : s.name name = side) :
    Parallel s v side (fun d => NextAlike s d side) e (handOver n name) (handOver m name) := by
  refine (link_parallel stands).bind fun d l k grows alike => ?_
  rw [alike.dead]
  split
  · exact (note_parallel _).bind fun _ _ _ _ _ => .fails _
  · refine (link_parallel (grows.link stands)).bind fun c l k more alike => ?_
    have bound : Parallel s v side Same c (modify fun w => w.bindName name n) (modify fun w => w.bindName name m) :=
      .modifies fun _ _ beside => beside.bindName own (more.link (grows.link stands))
    exact bound.bind fun _ _ _ next _ => .gives (.finish (.some (.created (next.model alike.model))))

theorem afterTeardown_parallel (stands : Stands side e.links n m) {name : String} (own : s.name name = side)
    (stopped : Verdict) :
    Parallel s v side (fun d => NextAlike s d side) e (afterTeardown n name stopped) (afterTeardown m name stopped) := by
  refine (finishTeardown_parallel stands stopped).result.bind fun d x y grows ends => ?_
  cases ends with
  | ok _ _ _ => exact handOver_parallel (grows.link stands) own
  | error error => exact (discard_parallel (grows.link stands) error).bind fun _ _ _ _ _ => .fails _

theorem goesOn_parallel (task : Stands side e.tasks i j) {registry : Nat} {name : String}
    (own : s.registry registry = side) (called : s.name name = side) (x y : Nat × Except LinkError Nat) :
    Stands side e.links x.1 y.1 ∧ OutcomeAlike (Stands side e.promises) x.2 y.2 →
    Parallel s v side (fun d => NextAlike s d side) e
      (match x with
        | (link,begun) => match begun with
          | .error error => do
            discard link error
            fail error
          | .ok promise => do
            match ← await i promise with
            | none => pure (.pause (.create registry name (some (link,promise))))
            | some answer => afterTeardown link name (verdict answer))
      (match y with
        | (link,begun) => match begun with
          | .error error => do
            discard link error
            fail error
          | .ok promise => do
            match ← await j promise with
            | none => pure (.pause (.create registry name (some (link,promise))))
            | some answer => afterTeardown link name (verdict answer)) := by
  intro both
  obtain ⟨n,x⟩ := x
  obtain ⟨m,y⟩ := y
  obtain ⟨link,ends⟩ := both
  cases ends with
  | error error => exact (discard_parallel link error).bind fun _ _ _ _ _ => .fails _
  | ok p q promise =>
    refine (await_parallel task promise).bind fun c x y more same => ?_
    cases same
    cases x with
    | none => exact .gives (.pause (.create own called (.some ⟨more.link link,more.promise promise⟩)))
    | some answer => exact afterTeardown_parallel (more.link link) called _

theorem resumeCreate_parallel (task : Stands side e.tasks i j) {registry : Nat} {name : String}
    (own : s.registry registry = side) (called : s.name name = side) {x y : Option (Nat × Nat)}
    (teardown : Option.Rel (fun x y => Stands side e.links x.1 y.1 ∧ Stands side e.promises x.2 y.2) x y) :
    Parallel s v side (fun d => NextAlike s d side) e (resumeCreate i registry name x)
      (resumeCreate j registry name y) := by
  cases teardown with
  | none =>
    refine (register_parallel own).bind fun d n m grows link => ?_
    exact (beginTeardown_parallel link).result.bind fun c x y more ends =>
      goesOn_parallel ((grows.trans more).task task) own called (n,x) (m,y) ⟨more.link link,ends⟩
  | some both =>
    exact (Parallel.gives
      (P := fun d x y => Stands side d.links x.1 y.1 ∧ OutcomeAlike (Stands side d.promises) x.2 y.2)
      ⟨both.1,.ok _ _ both.2⟩).bind fun d x y grows both => goesOn_parallel (grows.task task) own called x y both

theorem stopDeadline_parallel {plan other : StopPlan} (plans : PlanAlike e side plan other) (deadline : Option Nat) :
    Parallel s v side Same e (stopDeadline plan deadline) (stopDeadline other deadline) := by
  cases plans with
  | mk n m timeout poll model =>
    cases deadline with
    | some deadline => exact .gives rfl
    | none =>
      refine (visit_parallel .interrupt).bind fun d _ _ grows _ => ?_
      have interrupted : Parallel s v side Same d (modify fun w => w.modifyModel n Model.interrupt)
          (modify fun w => w.modifyModel m Model.interrupt) :=
        .modifies fun _ _ beside => beside.modifyPlanned (grows.model model) _
      refine interrupted.bind fun _ _ _ _ _ => now_parallel.bind fun _ time _ _ same => ?_
      cases same
      exact .gives rfl

theorem checkStop_parallel (task : Stands side e.tasks i j) (stands : Stands side e.promises p q)
    {plan other : StopPlan} (plans : PlanAlike e side plan other) (deadline : Nat) :
    Parallel s v side (fun d => NextAlike s d side) e (checkStop i p plan deadline) (checkStop j q other deadline) := by
  refine (visit_parallel .isActive).bind fun d _ _ grows _ => .gets fun u w beside => ?_
  have plans := plans.grow grows
  have checked : plan.check deadline u.now (u.modelActive plan.model) =
      other.check deadline w.now (w.modelActive other.model) := by
    cases plans with
    | mk _ _ _ _ model =>
      rw [beside.common.now,beside.modelActive model]
      rfl
  have timeout : plan.timeout = other.timeout := by
    cases plans
    rfl
  rw [checked,timeout]
  cases other.check deadline w.now (w.modelActive other.model) with
  | sleep ms =>
    exact (sleep_parallel (grows.task task) ms).bind fun _ _ _ more _ =>
      .gives (.pause (.stop ((grows.trans more).promise stands) (plans.grow more) _))
  | settle verdict =>
    have ended (d : Marks) (grows : e.Grows side d) : Parallel s v side (fun d => NextAlike s d side) d
        (do endPromise p (some verdict); pure (.finish none)) (do endPromise q (some verdict); pure (.finish none)) :=
      (endPromise_parallel (grows.promise stands) _).bind fun _ _ _ _ _ => .gives (.finish .none)
    cases verdict with
    | ok _ => exact ended d grows
    | error error => exact (note_parallel _).bind fun _ _ _ more _ => ended _ (grows.trans more)

theorem resumeStop_parallel (task : Stands side e.tasks i j) (stands : Stands side e.promises p q)
    {plan other : StopPlan} (plans : PlanAlike e side plan other) (deadline : Option Nat) :
    Parallel s v side (fun d => NextAlike s d side) e (resumeStop i p plan deadline)
      (resumeStop j q other deadline) := by
  refine .gets fun u w beside => ?_
  obtain ⟨x,y,here,there,alike⟩ := beside.promise stands
  rw [here,there,Option.any_some,Option.any_some,alike.cancelled]
  split
  · exact (note_parallel _).bind fun _ _ _ grows _ =>
      (endPromise_parallel (grows.promise stands) none).bind fun _ _ _ _ _ => .gives (.finish .none)
  · have attended : Parallel s v side Same e (modifyPromise p fun x => x.attend i) (modifyPromise q fun x => x.attend j) :=
      .modifies fun _ _ beside => beside.modifyPromise stands fun _ _ alike =>
        { alike with onCancel := join_alike alike.onCancel task }
    refine attended.bind fun d _ _ grows _ => ?_
    have checked : Parallel s v side (fun d => NextAlike s d side) d
        (do checkStop i p plan (← stopDeadline plan deadline))
        (do checkStop j q other (← stopDeadline other deadline)) := by
      refine (stopDeadline_parallel (plans.grow grows) deadline).bind fun c x y more same => ?_
      cases same
      have grows := grows.trans more
      exact checkStop_parallel (grows.task task) (grows.promise stands) (plans.grow grows) x
    exact checked.onCrash fun c more => endPromise_parallel (more.promise (grows.promise stands)) none

theorem resumeWait_parallel (task : Stands side e.tasks i j) (stands : Stands side e.promises p q) :
    Parallel s v side (fun d => NextAlike s d side) e (resumeWait i p) (resumeWait j q) := by
  refine (await_parallel task stands).bind fun d x y grows same => ?_
  cases same
  cases x with
  | none => exact .gives (.pause (.wait (grows.promise stands)))
  | some answer => exact .gives (.finish (.some (.same _ nofun)))

theorem resumeContinuation_parallel (task : Stands side e.tasks i j) (stands : Stands side e.promises p q) :
    Parallel s v side (fun d => NextAlike s d side) e (resumeContinuation i p) (resumeContinuation j q) := by
  refine (await_parallel task stands).bind fun d x y grows same => ?_
  cases same
  cases x with
  | none => exact .gives (.pause (.continuation (grows.promise stands)))
  | some answer =>
    cases answer with
    | none => exact .gives (.finish .none)
    | some verdict => exact .gives (.finish (.some (.same _ nofun)))

theorem resume_parallel (task : Stands side e.tasks i j) {job other : Job} (alike : JobAlike s e side job other) :
    Parallel s v side (fun d => NextAlike s d side) e (resume i job) (resume j other) := by
  cases alike with
  | update link phase => exact resumeUpdate_parallel task link phase
  | uncache link stop => exact resumeUncache_parallel task link stop
  | create own called teardown => exact resumeCreate_parallel task own called teardown
  | stop promise plans deadline => exact resumeStop_parallel task promise plans deadline
  | wait promise => exact resumeWait_parallel task promise
  | continuation promise => exact resumeContinuation_parallel task promise

end Action

namespace Beside

variable {u w : World}

theorem taken (beside : Beside s v side e u w) (stands : Stands side e.tasks i j) :
    Beside s v side e (u.taken i) (w.taken j) := by
  cases side with
  | true =>
    have alike : Alike s e u w := beside
    obtain ⟨p,ready⟩ := alike.ready
    exact { alike with
      ready := ready.erase_kept (fun _ _ other => other.same_iff stands) fun _ other => (stands.apart other).symm }
  | false =>
    obtain rfl := stands.placed
    obtain ⟨rfl,alike⟩ := beside
    obtain ⟨p,ready⟩ := alike.ready
    exact ⟨rfl,{ alike with ready := ready.erase_other fun _ _ other => other.apart stands }⟩

theorem report (beside : Beside s v side e u w) {label : Option Nat}
    (own : ∀ number, label = some number → s.number number = side) {a c : Report} (alike : ReportAlike e side a c) :
    Beside s v side e (u.report label a) (w.report label c) := by
  cases label with
  | none =>
    cases alike with
    | created => exact beside
    | same _ plain =>
      cases a with
      | failed error => exact beside.note _
      | _ => exact beside
  | some number =>
    have event : EventAlike s e side ⟨u.now,number,a⟩ ⟨w.now,number,c⟩ := ⟨beside.common.now,rfl,own number rfl,alike⟩
    cases side with
    | true =>
      have alikes : Alike s e u w := beside
      exact { alikes with events := alikes.events.push_kept event }
    | false =>
      obtain rfl := alike.eq
      obtain ⟨rfl,alikes⟩ := beside
      exact ⟨rfl,{ alikes with events := alikes.events.push_other event }⟩

theorem conclude (beside : Beside s v side e u w) (stands : Stands side e.tasks i j) {label : Option Nat}
    (own : ∀ number, label = some number → s.number number = side) {x y : Except Fault Next}
    (ends : OutcomeAlike (NextAlike s e side) x y) :
    Beside s v side e (World.conclude i label (x,u)) (World.conclude j label (y,w)) := by
  cases ends with
  | error f =>
    cases f with
    | error error => exact (beside.report own (.same (.failed error) nofun)).remove stands
    | crash => exact (beside.report own (.same .crashed nofun)).remove stands
  | ok _ _ next =>
    cases next with
    | pause alike => exact beside.setJob stands alike
    | finish reports =>
      cases reports with
      | none => exact beside.remove stands
      | some alike => exact (beside.report own alike).remove stands

theorem pollAborted (beside : Beside s v side e u w) (stands : Stands side e.tasks i j) {t k : Task}
    (alike : TaskAlike s e side t k) : Beside s v side e (u.pollAborted i t) (w.pollAborted j k) := by
  have reported : Beside s v side e ((u.report t.label .aborted).remove i) ((w.report k.label .aborted).remove j) := by
    rw [alike.label]
    exact (beside.report alike.own (.same .aborted nofun)).remove stands
  have job := alike.job
  rw [World.pollAborted,World.pollAborted]
  revert job
  generalize t.job = x
  generalize k.job = y
  intro job
  cases job with
  | continuation => exact beside.remove stands
  | _ => exact reported

theorem turn (beside : Beside s v side e u w) (stands : Stands side e.tasks i j) :
    ∃ d, e.Grows side d ∧ Beside s v side d (u.turn i) (w.turn j) := by
  have taken := beside.taken stands
  obtain ⟨t,k,here,there,rel⟩ := beside.task stands
  cases rel with
  | none =>
    rw [turn_idle (by rw [here]; rfl),turn_idle (by rw [there]; rfl)]
    exact ⟨e,.refl side e,taken⟩
  | some alike =>
    rename_i t k
    cases aborted : k.aborted with
    | true =>
      rw [turn_aborted here (alike.aborted.trans aborted),turn_aborted there aborted]
      exact ⟨e,.refl side e,taken.pollAborted stands alike⟩
    | false =>
      rw [turn_active here (alike.aborted.trans aborted),turn_active there aborted,alike.label]
      obtain ⟨d,grows,after,ends⟩ := resume_parallel stands alike.job _ _ taken
      exact ⟨d,grows,after.conclude (grows.task stands) alike.own ends⟩

end Beside
end EditorLink
