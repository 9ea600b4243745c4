import EditorLink.Proofs.Enrolled
import EditorLink.Proofs.Supersession
import EditorLink.Proofs.Timely

/-! One check of a stop attempt: when it is made, and what comes of what it finds. -/
namespace EditorLink
open World EditorLink.Action

namespace Action

variable {w : World} {id p ms : Nat} {plan : StopPlan} {deadline : Option Nat} {next : Nat}

theorem exec_checkStop_sleep (spared : .isActive ∉ w.sites)
    (check : plan.check next w.now (w.modelActive plan.model) = .sleep ms) :
    exec (checkStop id p plan next) w = (.ok (.pause (.stop p plan (some next))),
      { w with schedule := w.schedule.sleep id ms }) := by
  rw [checkStop,exec_bind_ok (exec_visit spared),exec_bind_ok (exec_get w),check]
  rfl

theorem checkStop_settles (id p next : Nat) {v : Verdict} (spared : .isActive ∉ w.sites)
    (check : plan.check next w.now (w.modelActive plan.model) = .settle v) :
    ∃ u, exec (checkStop id p plan next) w = (.ok (.finish none),u) ∧ u.tasks = w.tasks ∧
      u.outcomes = w.outcomes.modify p (Promise.ended (some v)) := by
  have settles (notices : List Notice) :
      ∃ u, exec (do endPromise p (some v); pure (Next.finish none)) { w with notices } =
        (.ok (.finish none),u) ∧ u.tasks = w.tasks ∧
          u.outcomes = w.outcomes.modify p (Promise.ended (some v)) := by
    obtain ⟨u,ended,same,outcomes⟩ := endPromise_ends p (some v) { w with notices }
    exact ⟨u,by rw [exec_bind_ok ended,exec_pure],by rw [same],outcomes⟩
  rw [checkStop,exec_bind_ok (exec_visit spared),exec_bind_ok (exec_get w),check]
  cases v with
  | ok _ => exact settles w.notices
  | error e => exact settles _

theorem stopDeadline_sets (plan : StopPlan) (deadline : Option Nat) (spared : .interrupt ∉ w.sites) :
    ∃ t, exec (stopDeadline plan deadline) w = (.ok (deadline.getD (w.now + plan.timeout)),t) ∧
      Readied w plan deadline t := by
  cases deadline with
  | some next => exact ⟨w,rfl,rfl,rfl,.inl rfl⟩
  | none =>
    rw [stopDeadline,exec_bind_ok (exec_visit spared)]
    exact ⟨_,rfl,rfl,rfl,.inr ⟨rfl,rfl⟩⟩

/-- An attempt that goes on comes to its check with nothing changed but its entry on the promise's list and
the interrupt of the model. -/
theorem resumeStop_checks (id : Nat) (plan : StopPlan) (deadline : Option Nat)
    (uncancelled : w.isCancelled p = false) (interrupt : .interrupt ∉ w.sites) : ∃ t, Readied w plan deadline t ∧
      ∀ next u, exec (checkStop id p plan (deadline.getD (w.now + plan.timeout))) t = (.ok next,u) →
        exec (resumeStop id p plan deadline) w = (.ok next,u) := by
  have attended := outcomes_attend w p id
  generalize ready : { w with promises := w.promises.modify p fun x => x.attend id } = a at attended
  have sites : a.sites = w.sites := by rw [← ready]
  have now : a.now = w.now := by rw [← ready]; rfl
  obtain ⟨t,set,readied⟩ := stopDeadline_sets plan deadline (sites ▸ interrupt)
  have models : a.models = w.models := by rw [← ready]
  refine ⟨t,⟨by rw [readied.same,← ready],readied.outcomes.trans attended,?_⟩,fun next u checked => ?_⟩
  · rw [← ready] at readied
    exact readied.models
  · rw [exec_resumeStop id plan deadline uncancelled,exec_onCrash,ready,exec_bind_ok set,now,checked]

/-- In its first turn an attempt interrupts the model, also where the model crashes when it is asked whether
it is active. -/
theorem resumeStop_interrupts (id : Nat) (plan : StopPlan) (uncancelled : w.isCancelled p = false)
    (interrupt : .interrupt ∉ w.sites) : (exec (resumeStop id p plan none) w).2.models =
      (w.modifyModel plan.model Model.interrupt).models := by
  rw [exec_resumeStop id plan none uncancelled,exec_onCrash]
  generalize ready : { w with promises := w.promises.modify p fun x => x.attend id } = a
  have sites : a.sites = w.sites := by rw [← ready]
  have models : (a.modifyModel plan.model Model.interrupt).models =
      (w.modifyModel plan.model Model.interrupt).models := by rw [← ready]; rfl
  have sets : exec (stopDeadline plan none) a =
      (.ok (a.now + plan.timeout),a.modifyModel plan.model Model.interrupt) := by
    rw [stopDeadline,exec_bind_ok (exec_visit (sites ▸ interrupt))]
    rfl
  rw [exec_bind_ok sets,← models]
  rcases checkStop_cases id p plan (a.now + plan.timeout) (a.modifyModel plan.model Model.interrupt) with
    ⟨-,crashed⟩ | ⟨-,next,v,checked,tried⟩
  · obtain ⟨u,ended,same,-⟩ := endPromise_ends p none (a.modifyModel plan.model Model.interrupt)
    rw [crashed]
    dsimp only
    rw [exec_bind_ok ended,exec_crash,same]
  · rw [checked]
    rcases tried.models with same | ⟨-,fresh,-⟩
    · exact same
    · cases fresh

end Action

namespace World

variable {w : World} {id p ms : Nat} {plan : StopPlan} {deadline : Option Nat}

/-- What the next check of the attempt decides. -/
def decides (w : World) (plan : StopPlan) (deadline : Option Nat) : Check :=
  plan.check (deadline.getD (w.now + plan.timeout)) w.now (w.modelActive plan.model)

theorem turn_sleeps (pursues : w.Pursues id p plan deadline) (uncancelled : w.isCancelled p = false)
    (interrupt : .interrupt ∉ w.sites) (isActive : .isActive ∉ w.sites)
    (check : w.decides plan deadline = .sleep ms) :
    (w.turn id).Pursues id p plan (some (deadline.getD (w.now + plan.timeout))) ∧
      (w.turn id).schedule = (w.taken id).schedule.sleep id ms ∧ (w.turn id).outcomes = w.outcomes := by
  obtain ⟨t,readied,ran⟩ := resumeStop_checks (w := w.taken id) id plan deadline uncancelled interrupt
  have same := readied.same
  have now : t.now = w.now := by rw [same]; rfl
  have slept : exec (checkStop id p plan (deadline.getD (w.now + plan.timeout))) t = _ :=
    exec_checkStop_sleep (by rw [same]; exact isActive) (by rw [now,readied.active]; exact check)
  have there : (w.turn id) = conclude id none (exec (resumeStop id p plan deadline) (w.taken id)) :=
    turn_active pursues rfl
  have tasks : t.tasks[id]? = some (some { label := none, job := .stop p plan deadline }) := by
    rw [same]
    exact pursues
  rw [there,ran _ _ slept]
  refine ⟨conclude_paused (w := { t with schedule := t.schedule.sleep id ms }) tasks none _,?_,readied.outcomes⟩
  rw [same]
  rfl

theorem turn_settles {v : Verdict} (pursues : w.Pursues id p plan deadline) (uncancelled : w.isCancelled p = false)
    (interrupt : .interrupt ∉ w.sites) (isActive : .isActive ∉ w.sites)
    (check : w.decides plan deadline = .settle v) :
    (w.turn id).tasks[id]? = some none ∧
      (w.turn id).outcomes = w.outcomes.modify p (Promise.ended (some v)) := by
  obtain ⟨t,readied,ran⟩ := resumeStop_checks (w := w.taken id) id plan deadline uncancelled interrupt
  have same := readied.same
  have now : t.now = w.now := by rw [same]; rfl
  obtain ⟨u,settled,tasks,outcomes⟩ :=
    checkStop_settles (w := t) id p (deadline.getD (w.now + plan.timeout)) (by rw [same]; exact isActive)
      (by rw [now,readied.active]; exact check)
  have there : (w.turn id) = conclude id none (exec (resumeStop id p plan deadline) (w.taken id)) :=
    turn_active pursues rfl
  rw [there,ran _ _ settled]
  have inside : id < u.tasks.length := by
    rw [tasks,same]
    exact (List.getElem?_eq_some_iff.mp pursues).1
  exact ⟨conclude_ended inside none nofun,by rw [outcomes_same (conclude_promises id none _ u),outcomes,readied.outcomes]; rfl⟩

/-- The first turn of an attempt interrupts its model, and no other. -/
theorem turn_interrupts (pursues : w.Pursues id p plan none) (uncancelled : w.isCancelled p = false)
    (interrupt : .interrupt ∉ w.sites) (known : plan.model < w.models.length) (k : Nat) :
    (w.turn id).interruptsOf k = if k = plan.model then w.interruptsOf k + 1 else w.interruptsOf k := by
  have models : (w.turn id).models = (w.modifyModel plan.model Model.interrupt).models := by
    rw [turn_active pursues rfl,(conclude_sameEntities _ _ _ _).models]
    exact resumeStop_interrupts (w := w.taken id) id plan uncancelled interrupt
  have same : (w.turn id).interruptsOf k = (w.modifyModel plan.model Model.interrupt).interruptsOf k := by
    rw [interruptsOf,models]
    rfl
  rw [same,interruptsOf_interrupt known]
  split
  · rename_i here
    rw [here]
  · rfl

end World
end EditorLink
