import EditorLink.Proofs.Orderly

/-! How the stop attempts fare in a single move. Only a turn of its own task ends an attempt, and only such
a turn interrupts a model. -/
namespace EditorLink
open World EditorLink.Action

namespace Action

variable {w : World}

theorem startStop_bides (n : Nat) (canSpawn : Bool) : Keeps Bides (startStop n canSpawn) := by
  intro w
  rcases startStop_cases n canSpawn w with ⟨fault,refused⟩ | ⟨l,v,there,fine,released,ran⟩
  · rw [refused]
    exact Frame.refl w
  · have before : Aloof w v := aloof_released there released
    have found := released.found there
    refine Frame.trans before.bides ?_
    rw [ran]
    cases canSpawn with
    | true => exact bides_attempted found rfl fine
    | false => exact (aloof_jam found rfl).bides

theorem await_aloof (id p : Nat) : Keeps Aloof (await id p) := by
  intro w
  have observed : World.outcomes { w with promises := w.promises.modify p fun x => x.observe id } =
      w.outcomes := map_modify_same Promise.core (fun x => x.observe id) (fun _ => rfl) w.promises p
  rw [exec_await]
  split
  · exact aloof_of observed rfl rfl (tasks_same rfl)
  · exact Frame.refl w

theorem serves_bides (n : Nat) : Serves n Bides := by
  have uncaches : Keeps Aloof (uncacheModel n) :=
    uncacheModel_keeps n (fun w k => aloof_modifyModel w k _ fun m => by
      rw [Model.uncache]
      split <;> rfl) fun w => aloof_note w _
  exact serves_of_handling (fun handling => (aloof_handling handling).bides)
    (fun w name => (aloof_of (v := w) (w := w.bindName name n) rfl rfl rfl (tasks_same rfl)).bides)
    (fun id promise _ => (await_aloof id promise).mono Aloof.bides) (startStop_bides n true)
    (uncaches.mono Aloof.bides)

theorem resume_bides (id : Nat) {job : Job} (other : ¬ job.Stops) : Keeps Bides (resume id job) := by
  refine resume_serves id job ?_ (fun n _ => serves_bides n) ?_ ?_ ?_
  · intro n phase _
    have updates : Keeps Aloof (resumeUpdate id n phase) :=
      resumeUpdate_keeps id (fun w _ => aloof_note w _) (fun w k _ _ => aloof_modifyModel w k _ fun _ => rfl)
        (fun w k _ _ => aloof_modifyModel w k _ fun _ => rfl)
        (fun ms w => aloof_of rfl rfl rfl (tasks_same rfl)) n phase
    exact updates.mono Aloof.bides
  · intro registry name _
    have registers : Keeps Aloof (register registry) :=
      register_keeps registry (fun _ => aloof_of rfl rfl rfl (tasks_same rfl)) fun w r _ =>
        aloof_withLink w registry r
    exact resumeCreate_fresh_keeps registry (registers.mono Aloof.bides) serves_bides id name
  · intro promise plan deadline same
    exact absurd ⟨promise,plan,deadline,same⟩ other
  · intro promise
    exact (await_aloof id promise).mono Aloof.bides

end Action

namespace World

theorem conclude_promises (id : Nat) (label : Option Nat) (r : Except Fault Next) (w : World) :
    (conclude id label (r,w)).promises = w.promises := by
  have reported (x : Report) : (w.report label x).promises = w.promises := by
    unfold report
    split <;> rfl
  rcases r with (e | _) | job | _ | x
  · exact reported _
  · exact reported _
  · rfl
  · rfl
  · exact reported _

theorem aloof_conclude {id : Nat} {w : World} {t : Task} (there : w.tasks[id]? = some (some t))
    (other : ¬ t.job.Stops) {r : Except Fault Next} (leads : ∀ job, r = .ok (.pause job) → t.job.Follows job)
    (label : Option Nat) : Aloof w (conclude id label (r,w)) := by
  have entities := conclude_sameEntities id label r w
  refine aloof_of (outcomes_same (conclude_promises id label r w)) entities.links
    (by rw [counts,entities.models]; rfl) ?_
  refine tasks_replaced there other (fun i away => conclude_others away label r w) fun u here stops => ?_
  obtain ⟨v,found,paused,-⟩ := conclude_here here
  rw [there] at found
  cases found
  exact other ((leads _ paused).stops stops)

theorem aborted_aloof {id : Nat} {w : World} {t : Task} (there : w.tasks[id]? = some (some t))
    (other : ¬ t.job.Stops) : Aloof w (w.pollAborted id t) := by
  have entities := aborted_sameEntities w id t
  refine aloof_of (outcomes_same ?_) entities.links (by rw [counts,entities.models]; rfl)
    (tasks_replaced there other (fun i away => aborted_others away w t) fun u here => absurd here aborted_here)
  unfold pollAborted report
  split
  · rfl
  · split <;> rfl

theorem turn_bides {w : World} {id : Nat}
    (other : ∀ t, w.tasks[id]? = some (some t) → ¬ t.job.Stops) : Bides w (w.turn id) := by
  have taken : Aloof w (w.taken id) := aloof_sameEntities (sameEntities_taken w id) rfl rfl
  rcases turn_cases w id with ⟨-,same⟩ | ⟨t,there,⟨-,same⟩ | active⟩
  · rw [same]
    exact taken.bides
  · rw [same]
    exact Frame.trans taken.bides (aborted_aloof (w := w.taken id) there (other t there)).bides
  · obtain ⟨r,v,ran,-,known,turned⟩ := turn_ran there active
    have still := other t there
    have before := resume_bides id still (w.taken id)
    rw [ran] at before
    rw [turned]
    refine Frame.trans taken.bides (Frame.trans before ?_)
    refine (aloof_conclude known still (fun job same => ?_) t.label).bides
    exact resume_yieldsNext id t.job (w.taken id) (.pause job) v (by rw [ran,same])

/-- What a turn of a stop attempt's own task comes to: the task goes on, or the attempt has ended. -/
structure Turned (w : World) (id p : Nat) (plan : StopPlan) (deadline : Option Nat) (v : World) : Prop where
  links : v.links = w.links
  others : ∀ i, i ≠ id → v.tasks[i]? = w.tasks[i]?
  models : v.models = w.models ∨ w.isCancelled p = false ∧ deadline = none ∧
    v.models = (w.modifyModel plan.model Model.interrupt).models
  goes : (∃ next, v.Pursues id p plan (some next) ∧ v.outcomes = w.outcomes) ∨
    ∃ value, v.tasks[id]? = some none ∧ v.outcomes = w.outcomes.modify p (Promise.ended value) ∧
      (value = none → w.isCancelled p = true ∨ .interrupt ∈ w.sites ∨ .isActive ∈ w.sites) ∧
      (value = some (.ok ()) → w.modelActive plan.model = false) ∧
      ∀ e, value = some (.error e) → e = .stopTimedOut plan.timeout

variable {w v : World} {id p : Nat} {plan : StopPlan} {deadline : Option Nat}

theorem turn_turned (pursues : w.Pursues id p plan deadline) :
    Turned w id p plan deadline (w.turn id) := by
  have tried := resumeStop_tried id p plan deadline (w.taken id)
  have turned : w.turn id = conclude id none (exec (resumeStop id p plan deadline) (w.taken id)) :=
    turn_active pursues rfl
  rw [turned]
  rcases ran : exec (resumeStop id p plan deadline) (w.taken id) with ⟨r,v⟩
  rw [ran] at tried
  have tried : Tried (w.taken id) p plan deadline r v := tried
  have entities := conclude_sameEntities id none r v
  have outcomes : (conclude id none (r,v)).outcomes = v.outcomes :=
    outcomes_same (conclude_promises id none r v)
  have tasks : v.tasks = w.tasks := by rw [tried.same]; rfl
  refine ⟨?_,fun i away => ?_,?_,?_⟩
  · rw [entities.links,tried.same]
    rfl
  · rw [conclude_others away,tasks]
  · rw [entities.models]
    exact tried.models
  · rw [outcomes]
    rcases tried.goes with ⟨next,rfl,same⟩ | ⟨value,ended,rest⟩
    · have there : v.tasks[id]? = some (some { label := none, job := .stop p plan deadline }) := by
        rw [tasks]
        exact pursues
      exact .inl ⟨next,conclude_paused there none _,same⟩
    · refine .inr ⟨value,conclude_ended ?_ none ?_,rest⟩
      · rw [tasks]
        exact (List.getElem?_eq_some_iff.mp pursues).1
      · rintro job rfl
        rcases ended with same | same <;> cases same

theorem Turned.pursues (turned : Turned w id p plan deadline v) (own : w.Pursues id p plan deadline)
    {i q : Nat} {other : StopPlan} {later : Option Nat} (pursues : v.Pursues i q other later) :
    ∃ before, w.Pursues i q other before ∧ (i = id → later ≠ none ∧ v.outcomes = w.outcomes) := by
  by_cases here : i = id
  · subst here
    rcases turned.goes with ⟨next,after,same⟩ | ⟨_,gone,-⟩
    · rw [Pursues,after] at pursues
      cases pursues
      exact ⟨deadline,own,fun _ => ⟨Option.some_ne_none next,same⟩⟩
    · rw [Pursues,gone] at pursues
      cases pursues
  · rw [Pursues,turned.others i here] at pursues
    exact ⟨later,pursues,fun same => absurd same here⟩

theorem Turned.pursuer (turned : Turned w id p plan deadline v) {i q : Nat} {other : StopPlan}
    {later : Option Nat} (pursues : w.Pursues i q other later) (away : i ≠ id) :
    v.Pursues i q other later := by
  rw [Pursues,turned.others i away]
  exact pursues

theorem Turned.outcome (turned : Turned w id p plan deadline v) {q : Nat} {x : Promise Verdict}
    (there : v.outcomes[q]? = some x) :
    w.outcomes[q]? = some x ∨ q = p ∧ x.pending = false ∧ v.tasks[id]? = some none := by
  rcases turned.goes with ⟨_,_,same⟩ | ⟨value,gone,same,-⟩
  · exact .inl (same ▸ there)
  · by_cases here : p = q
    · subst here
      rw [same,List.getElem?_modify_eq] at there
      obtain ⟨y,_,rfl⟩ := Option.map_eq_some_iff.mp there
      exact .inr ⟨rfl,rfl,gone⟩
    · rw [same,List.getElem?_modify_ne _ _ here] at there
      exact .inl there

/-- A cancelled attempt ends without a verdict. -/
theorem turn_cancelled (own : w.Pursues id p plan deadline) (gone : w.isCancelled p = true) :
    (w.turn id).outcomes = w.outcomes.modify p (Promise.ended none) := by
  obtain ⟨v,ran,-,outcomes⟩ := resumeStop_cancelled (w := w.taken id) id plan deadline gone
  have turned : w.turn id = conclude id none (exec (resumeStop id p plan deadline) (w.taken id)) :=
    turn_active own rfl
  rw [turned,ran,outcomes_same (conclude_promises id none _ v),outcomes]
  rfl

/-- An attempt that fails in its turn was not cancelled, and has run out of time. -/
theorem turn_failed (own : w.Pursues id p plan deadline) {q : Nat} {x : Promise Verdict} {e : LinkError}
    (there : (w.turn id).outcomes[q]? = some x) (failed : x.value = some (.error e)) :
    w.outcomes[q]? = some x ∨ q = p ∧ w.isCancelled p = false ∧ e = .stopTimedOut plan.timeout := by
  rcases (turn_turned own).goes with ⟨_,_,same⟩ | ⟨value,_,same,-,-,late⟩
  · exact .inl (same ▸ there)
  · by_cases here : p = q
    · subst here
      refine .inr ⟨rfl,Bool.eq_false_iff.mpr fun gone => ?_,?_⟩
      · rw [turn_cancelled own gone,List.getElem?_modify_eq] at there
        obtain ⟨y,_,rfl⟩ := Option.map_eq_some_iff.mp there
        cases failed
      · rw [same,List.getElem?_modify_eq] at there
        obtain ⟨y,_,rfl⟩ := Option.map_eq_some_iff.mp there
        exact late e failed
    · rw [same,List.getElem?_modify_ne _ _ here] at there
      exact .inl there

theorem Turned.outcome_on (turned : Turned w id p plan deadline v) {q : Nat} {x : Promise Verdict}
    (there : w.outcomes[q]? = some x) : ∃ y, v.outcomes[q]? = some y ∧ y.cancelled = x.cancelled ∧
      (q ≠ p → y = x) := by
  rcases turned.goes with ⟨_,_,same⟩ | ⟨value,_,same,-⟩
  · exact ⟨x,same ▸ there,rfl,fun _ => rfl⟩
  · rw [same,List.getElem?_modify,there]
    by_cases here : p = q
    · exact ⟨x.ended value,by simp [here],rfl,fun other => absurd here.symm other⟩
    · exact ⟨x,by simp [here],rfl,fun _ => rfl⟩

theorem Turned.cancelled (turned : Turned w id p plan deadline v) {q : Nat} (gone : w.isCancelled q = true) :
    v.isCancelled q = true := by
  obtain ⟨x,there,ended⟩ := isCancelled_iff.mp gone
  obtain ⟨y,found,same,-⟩ := turned.outcome_on there
  exact isCancelled_iff.mpr ⟨y,found,same.trans ended⟩

theorem Turned.goes_on (turned : Turned w id p plan deadline v) {x : Promise Verdict}
    (there : v.outcomes[p]? = some x) (open' : x.pending = true) :
    ∃ next, v.Pursues id p plan (some next) := by
  rcases turned.goes with ⟨next,after,-⟩ | ⟨value,_,same,-⟩
  · exact ⟨next,after⟩
  · rw [same,List.getElem?_modify_eq] at there
    obtain ⟨y,-,rfl⟩ := Option.map_eq_some_iff.mp there
    cases open'

theorem Turned.orderly (turned : Turned w id p plan deadline v) (own : w.Pursues id p plan deadline)
    (orderly : w.Orderly) : v.Orderly where
  tended i t there stops := by
    by_cases here : i = id
    · subst here
      rcases turned.goes with ⟨next,after,-⟩ | ⟨_,gone,-⟩
      · rw [Pursues,there] at after
        cases after
        exact ⟨rfl,rfl⟩
      · rw [gone] at there
        cases there
    · exact orderly.tended i t (turned.others i here ▸ there) stops
  pursued i q other later pursues := by
    obtain ⟨before,was,own'⟩ := turned.pursues own pursues
    obtain ⟨x,there,open'⟩ := orderly.pursued i q other before was
    by_cases here : i = id
    · exact ⟨x,(own' here).2 ▸ there,open'⟩
    · -- the attempt that had its turn has no second task
      have apart : q ≠ p := fun same =>
        here (orderly.single i id q other plan before deadline was (same ▸ own))
      obtain ⟨y,found,-,same⟩ := turned.outcome_on there
      exact ⟨y,found,same apart ▸ open'⟩
  single i j q other others later last one two := by
    obtain ⟨before,was,-⟩ := turned.pursues own one
    obtain ⟨earlier,had,-⟩ := turned.pursues own two
    exact orderly.single i j q other others before earlier was had
  pending q x there open' := by
    rcases turned.outcome there with was | ⟨-,ended,-⟩
    · obtain ⟨none,i,other,before,pursues⟩ := orderly.pending q x was open'
      refine ⟨none,?_⟩
      by_cases here : i = id
      · subst here
        rw [Pursues,own] at pursues
        cases pursues
        obtain ⟨next,after⟩ := turned.goes_on there open'
        exact ⟨i,plan,some next,after⟩
      · exact ⟨i,other,before,turned.pursuer pursues here⟩
    · rw [ended] at open'
      cases open'
  jammed n jam := by
    rw [World.jammed,turned.links] at jam
    rw [stopOf,turned.links]
    exact orderly.jammed n jam
  slot n q stop := by
    rw [stopOf,turned.links] at stop
    have known := orderly.slot n q stop
    rw [← outcomes_length] at known ⊢
    obtain ⟨y,found,-⟩ := turned.outcome_on (List.getElem?_eq_getElem known)
    exact (List.getElem?_eq_some_iff.mp found).1
  owner n q i other later stop pursues := by
    rw [stopOf,turned.links] at stop
    rw [planOf,turned.links]
    obtain ⟨before,was,-⟩ := turned.pursues own pursues
    exact orderly.owner n q i other before stop was
  owned i q other later pursues := by
    obtain ⟨before,was,-⟩ := turned.pursues own pursues
    refine (orderly.owned i q other before was).imp (fun gone => turned.cancelled gone) ?_
    apply Exists.imp
    intro n stop
    rw [stopOf,turned.links]
    exact stop

theorem Turned.onward (turned : Turned w id p plan deadline v) (own : w.Pursues id p plan deadline)
    (orderly : w.Orderly) : Onward w v where
  size := by
    rw [← outcomes_length,← outcomes_length]
    rcases turned.goes with ⟨_,_,same⟩ | ⟨_,_,same,-⟩
    · exact Nat.le_of_eq (congrArg List.length same).symm
    · exact Nat.le_of_eq (by rw [same,List.length_modify])
  cancelled _ gone := turned.cancelled gone
  closed q x there ended := by
    obtain ⟨y,found,-,same⟩ := turned.outcome_on there
    have apart : q ≠ p := by
      rintro rfl
      obtain ⟨z,known,open'⟩ := orderly.pursued id q plan deadline own
      rw [there] at known
      cases known
      rw [ended] at open'
      cases open'
    exact ⟨y,found,same apart ▸ ended,by rw [same apart]⟩
  stops n := .inl (by rw [stopOf,turned.links]; rfl)
  plans n plan made := by
    rw [planOf,turned.links]
    exact made
  begun i q other _ fresh := by
    obtain ⟨before,was,own'⟩ := turned.pursues own fresh
    by_cases here : i = id
    · exact absurd rfl (own' here).1
    · rw [Pursues,turned.others i here] at fresh
      exact fresh

theorem aloof_handles (w : World) (handles : List (Nat × Nat)) : Aloof w { w with handles } :=
  aloof_of rfl rfl rfl (tasks_same rfl)

theorem perform_bides (w : World) (number : Nat) (c : Command) (single : ∀ ms, c ≠ .advance ms) :
    Bides w (w.perform number c).2 := by
  have does := perform_does w number c single
  generalize (w.perform number c).2 = v at does ⊢
  cases does with
  | nothing => exact Frame.refl w
  | outside o => exact (aloof_around (change_around w o)).bides
  | started c job called held _ => exact (aloof_start w number called).bides
  | named c n name held =>
    exact (aloof_of (v := w) (w := w.bindName name n) rfl rfl rfl (tasks_same rfl)).bides
  | dropped name =>
    have drops : Aloof w { w with names := w.names.filter fun n => n.1 ≠ name } :=
      aloof_of rfl rfl rfl (tasks_same rfl)
    exact drops.bides
  | switched name on n found => exact (aloof_handling (setLive_handling on w)).bides
  | killed name n found => exact (aloof_handling (kill_handling w)).bides
  | stopped name canSpawn n handles =>
    exact Frame.trans (startStop_bides n canSpawn w) (aloof_handles _ handles).bides
  | cancelled handle promise => exact (aloof_cancel w promise).bides
  | released handle handles => exact (aloof_handles w handles).bides
  | aborted label =>
    intro orderly
    exact (aloof_abort orderly label).bides orderly

/-- KeepsHook from a turn of an attempt's own task, no move ends an attempt or interrupts a model. -/
theorem move_bides {m : Move} (single : m.Single)
    (other : ∀ id t, m = .turn id → w.tasks[id]? = some (some t) → ¬ t.job.Stops) : Bides w (w.move m) := by
  cases m with
  | perform number c => exact perform_bides w number c fun ms same => single number ms (by rw [same])
  | turn id => exact turn_bides fun t there => other id t rfl there
  | arrive now =>
    have arrives : Aloof w (Scheduled.arriveAt now w) := aloof_of rfl rfl rfl (tasks_same rfl)
    exact arrives.bides

theorem Orderly.pursues (orderly : w.Orderly) {id : Nat} {t : Task} (there : w.tasks[id]? = some (some t))
    (stops : t.job.Stops) : ∃ p plan deadline, w.Pursues id p plan deadline := by
  obtain ⟨unlabelled,active⟩ := orderly.tended id t there stops
  obtain ⟨p,plan,deadline,same⟩ := stops
  obtain ⟨label,job,aborted⟩ := t
  cases unlabelled
  cases active
  cases same
  exact ⟨p,plan,deadline,there⟩

theorem move_cases {m : Move} (single : m.Single) (orderly : w.Orderly) :
    (∃ id p plan deadline, m = .turn id ∧ w.Pursues id p plan deadline) ∨ Bides w (w.move m) := by
  by_cases stop : ∃ id t, m = .turn id ∧ w.tasks[id]? = some (some t) ∧ t.job.Stops
  · obtain ⟨id,t,same,there,stops⟩ := stop
    obtain ⟨p,plan,deadline,pursues⟩ := orderly.pursues there stops
    exact .inl ⟨id,p,plan,deadline,same,pursues⟩
  · exact .inr (move_bides single fun id t same there stops => stop ⟨id,t,same,there,stops⟩)

theorem move_goes (w : World) {m : Move} (single : m.Single) : Goes w (w.move m) := by
  intro orderly
  rcases move_cases single orderly with ⟨id,p,plan,deadline,rfl,own⟩ | bides
  · have turned := turn_turned own
    exact ⟨turned.orderly own orderly,turned.onward own orderly⟩
  · exact bides.goes orderly

theorem reaches_goes {allowed : Move → Prop} (internal : ∀ m, m.Internal → allowed m)
    (reached : Reaches allowed v w) : Goes v w :=
  run_keeps internal (fun w _ _ single => move_goes w single) reached

theorem orderly_of_reached {s : Setting} (reached : Reaches (fun _ => True) s.start w) : w.Orderly := by
  refine (reaches_goes (fun _ _ => trivial) reached ?_).1
  refine ⟨nofun,nofun,nofun,?_,nofun,nofun,nofun,nofun⟩
  rintro p x there
  cases there

end World
end EditorLink
