import EditorLink.Proofs.Exec

/-! What goes on in the background of a link: sleeping, waiting, stopping the model, clearing its
cache and feeding it. None of it touches a widget, a link's mode, or who holds which link. -/
namespace EditorLink

theorem map_modify {α β : Type} (g : α → β) {f : α → α} {h : β → β} (same : ∀ a, g (f a) = h (g a))
    (items : List α) (i : Nat) : (items.modify i f).map g = (items.map g).modify i h := by
  apply List.ext_getElem?
  intro j
  simp only [List.getElem?_map,List.getElem?_modify,Option.map_eq_map,Option.map_map]
  congr 1
  funext a
  by_cases here : i = j
  · simp [here,same]
  · simp [here]

theorem map_modify_same {α β : Type} (g : α → β) (f : α → α) (same : ∀ a, g (f a) = g a)
    (items : List α) (i : Nat) : (items.modify i f).map g = items.map g := by
  rw [map_modify (h := id) g same]
  exact List.modify_id i _

theorem modify_eq_set {α : Type} {items : List α} {i : Nat} {a : α} (f : α → α)
    (there : items[i]? = some a) : items.modify i f = items.set i (f a) := by
  apply List.ext_getElem?
  intro j
  rw [List.getElem?_modify,List.getElem?_set]
  by_cases here : i = j
  · subst here
    obtain ⟨inside,rfl⟩ := List.getElem?_eq_some_iff.mp there
    simp [inside]
  · simp [here]

theorem getElem?_append_some {α : Type} {items : List α} {i : Nat} {a : α} (there : items[i]? = some a)
    (more : List α) : (items ++ more)[i]? = some a := by
  obtain ⟨inside,-⟩ := List.getElem?_eq_some_iff.mp there
  rw [List.getElem?_append_left inside,there]

/-- A link without its stop attempts. -/
def Link.core (l : Link) : Link := { l with stop := none, stopPoisoned := false }

theorem core_fields {k l : Link} (alike : k.core = l.core) :
    k.model = l.model ∧ k.config = l.config ∧ k.slot = l.slot ∧ k.live = l.live ∧ k.dead = l.dead ∧
      k.hookPoisoned = l.hookPoisoned := by
  simpa only [Link.core,Link.mk.injEq,and_true] using alike

/-- What a model has noted so far, the text that it remembers, and how often it was made to forget. -/
structure Memory where
  log : List (Nat × String) := []
  text : String := ""
  clearings : Nat := 0

def Model.memory (m : Model) : Memory := ⟨m.updates,m.lastText,m.uncaches⟩

def Notice.isUpdating : Notice → Bool
  | .updating _ => true
  | _ => false

namespace World

/-- How many updates of models have been started; each one is noted just before. -/
def updatesBegun (w : World) : Nat := w.notices.countP Notice.isUpdating

/-- How often each model has been interrupted, and how often its cache has been cleared. -/
def counts (w : World) : List (Nat × Nat) :=
  w.models.map fun m => (m.model.interrupts,m.model.uncaches)

def memories (w : World) : List Memory := w.models.map fun m => m.model.memory

def fed (w : World) : List (List (Nat × String)) := w.models.map fun m => m.model.updates

def intervals (w : World) : List Interval := w.models.map fun m => m.model.interval

/-- New tasks are stop attempts, which hold no link. -/
def StopsAdded (v w : World) : Prop :=
  ∃ stops, w.tasks = v.tasks ++ stops ∧
    ∀ t ∈ stops, ∃ promise plan, t = some { label := none, job := .stop promise plan none }

theorem StopsAdded.of_eq {v w : World} (same : w.tasks = v.tasks) : StopsAdded v w :=
  ⟨[],by rw [same,List.append_nil],by simp⟩

theorem StopsAdded.trans {u v w : World} (first : StopsAdded u v) (next : StopsAdded v w) :
    StopsAdded u w := by
  obtain ⟨stops,before,fromStops⟩ := first
  obtain ⟨more,after,fromMore⟩ := next
  refine ⟨stops ++ more,by rw [after,before,List.append_assoc],?_⟩
  intro t member
  rcases List.mem_append.mp member with h | h
  · exact fromStops t h
  · exact fromMore t h

instance : Frame StopsAdded where
  refl _ := StopsAdded.of_eq rfl
  trans := StopsAdded.trans

theorem StopsAdded.mem {v w : World} (added : StopsAdded v w) {t : Task} (member : some t ∈ w.tasks) :
    some t ∈ v.tasks ∨ t.job.link? = none := by
  obtain ⟨stops,same,fromStops⟩ := added
  rw [same] at member
  rcases List.mem_append.mp member with old | new
  · exact .inl old
  · obtain ⟨promise,plan,stop⟩ := fromStops _ new
    cases stop
    exact .inr rfl

theorem StopsAdded.task {v w : World} (added : StopsAdded v w) {i : Nat} {t : Option Task}
    (there : v.tasks[i]? = some t) : w.tasks[i]? = some t := by
  obtain ⟨stops,same,-⟩ := added
  rw [same,getElem?_append_some there]

def JobsKept (v w : World) : Prop :=
  ∀ (i : Nat) (t : Task), v.tasks[i]? = some (some t) →
    ∃ u, w.tasks[i]? = some (some u) ∧ u.job = t.job

instance : Frame JobsKept where
  refl _ _ t there := ⟨t,there,rfl⟩
  trans first next i t there := by
    obtain ⟨s,between,same⟩ := first i t there
    obtain ⟨u,after,alike⟩ := next i s between
    exact ⟨u,after,alike.trans same⟩

theorem jobsKept_append {v w : World} {more : List (Option Task)} (same : w.tasks = v.tasks ++ more) :
    JobsKept v w := by
  intro i t there
  exact ⟨t,by rw [same,getElem?_append_some there],rfl⟩

theorem StopsAdded.jobs {v w : World} (added : StopsAdded v w) : JobsKept v w := by
  obtain ⟨stops,same,_⟩ := added
  exact jobsKept_append same

structure Quiet (v w : World) : Prop where
  host : w.host = v.host
  widgets : w.widgets = v.widgets
  kept : w.kept = v.kept
  registries : w.registries = v.registries
  names : w.names = v.names
  sites : w.sites = v.sites
  events : w.events = v.events
  links : w.links.map Link.core = v.links.map Link.core
  intervals : w.intervals = v.intervals
  tasks : StopsAdded v w

/-- Quiet, and no model is fed either. -/
structure Still (v w : World) : Prop extends Quiet v w where
  begun : w.updatesBegun = v.updatesBegun
  fed : w.fed = v.fed

theorem Quiet.refl (w : World) : Quiet w w :=
  ⟨rfl,rfl,rfl,rfl,rfl,rfl,rfl,rfl,rfl,StopsAdded.of_eq rfl⟩

theorem Quiet.trans {u v w : World} (first : Quiet u v) (next : Quiet v w) : Quiet u w where
  host := next.host.trans first.host
  widgets := next.widgets.trans first.widgets
  kept := next.kept.trans first.kept
  registries := next.registries.trans first.registries
  names := next.names.trans first.names
  sites := next.sites.trans first.sites
  events := next.events.trans first.events
  links := next.links.trans first.links
  intervals := next.intervals.trans first.intervals
  tasks := first.tasks.trans next.tasks

instance : Frame Quiet := ⟨Quiet.refl,Quiet.trans⟩

instance : Frame Still where
  refl w := { Quiet.refl w with begun := rfl, fed := rfl }
  trans first next :=
    { first.toQuiet.trans next.toQuiet with
      begun := next.begun.trans first.begun
      fed := next.fed.trans first.fed }

theorem Quiet.link {v w : World} (quiet : Quiet v w) {n : Nat} {l : Link}
    (there : v.links[n]? = some l) : ∃ k, w.links[n]? = some k ∧ k.core = l.core := by
  have same := congrArg (fun links => links[n]?) quiet.links
  simp only [List.getElem?_map,there,Option.map_some] at same
  exact Option.map_eq_some_iff.mp same

theorem Quiet.link_back {v w : World} (quiet : Quiet v w) {n : Nat} {k : Link}
    (there : w.links[n]? = some k) : ∃ l, v.links[n]? = some l ∧ k.core = l.core := by
  have same := congrArg (fun links => links[n]?) quiet.links
  simp only [List.getElem?_map,there,Option.map_some] at same
  obtain ⟨l,found,alike⟩ := Option.map_eq_some_iff.mp same.symm
  exact ⟨l,found,alike.symm⟩

theorem Quiet.models {v w : World} (quiet : Quiet v w) : w.models.length = v.models.length := by
  simpa [World.intervals] using congrArg List.length quiet.intervals

theorem Quiet.size {v w : World} (quiet : Quiet v w) : w.links.length = v.links.length := by
  simpa using congrArg List.length quiet.links

theorem still_of (w : World) (schedule : Schedule) (promises : List (Promise Verdict))
    (models : List PlannedModel) (same : (models.map fun m => m.model.updates) = w.fed)
    (intervals : (models.map fun m => m.model.interval) = w.intervals) :
    Still w { w with schedule, promises, models } where
  host := rfl
  widgets := rfl
  kept := rfl
  registries := rfl
  names := rfl
  sites := rfl
  events := rfl
  links := rfl
  intervals := intervals
  tasks := StopsAdded.of_eq rfl
  begun := rfl
  fed := same

theorem elim_of_counts (g : Nat × Nat → Nat) {v w : World} (same : w.counts = v.counts) (k : Nat) :
    (w.models[k]?.elim 0 fun m => g (m.model.interrupts,m.model.uncaches)) =
      v.models[k]?.elim 0 fun m => g (m.model.interrupts,m.model.uncaches) := by
  have counted (u : World) : u.counts[k]?.elim 0 g =
      u.models[k]?.elim 0 fun m => g (m.model.interrupts,m.model.uncaches) := by
    rw [counts,List.getElem?_map]
    cases u.models[k]? <;> rfl
  rw [← counted,← counted,same]

theorem elim_modifyModel {β : Type} (g : Model → β) {f : Model → Model} (same : ∀ m, g (f m) = g m)
    (w : World) (k n : Nat) (none : β) : ((w.modifyModel k f).models[n]?.elim none fun m => g m.model) =
      w.models[n]?.elim none fun m => g m.model := by
  simp only [modifyModel,List.getElem?_modify]
  cases w.models[n]? with
  | none => rfl
  | some m =>
    by_cases here : k = n
    · simp [here,same]
    · simp [here]

theorem quiet_models (w : World) (n : Nat) {f : Model → Model} (interval : ∀ m, (f m).interval = m.interval) :
    Quiet w (w.modifyModel n f) :=
  { Quiet.refl w with intervals := map_modify_same _ _ (fun m => interval m.model) _ _ }

theorem quiet_note (w : World) (notice : Notice) : Quiet w (w.note notice) := { Quiet.refl w with }

theorem still_note (w : World) {notice : Notice} (other : notice.isUpdating = false) :
    Still w (w.note notice) :=
  { quiet_note w notice with
    begun := by simp [updatesBegun,note,List.countP_append,other]
    fed := rfl }

theorem still_modifyModel (w : World) (n : Nat) (f : Model → Model)
    (same : ∀ m, (f m).updates = m.updates) (interval : ∀ m, (f m).interval = m.interval) :
    Still w (w.modifyModel n f) :=
  still_of w w.schedule w.promises _ (map_modify_same _ _ (fun m => same m.model) _ _)
    (map_modify_same _ _ (fun m => interval m.model) _ _)

theorem still_updatePromise (w : World) (promise : Nat)
    (f : Promise Verdict → Promise Verdict × List Nat) : Still w (w.updatePromise promise f) := by
  rw [updatePromise]
  split
  · exact Frame.refl w
  · exact still_of w _ _ w.models rfl rfl

theorem still_modifyLink (w : World) (n : Nat) (f : Link → Link)
    (same : ∀ l, (f l).core = l.core) : Still w (w.modifyLink n f) :=
  { Quiet.refl w with
    links := map_modify_same _ _ same _ _
    begun := rfl
    fed := rfl }

end World

namespace Action
open World

theorem note_still {notice : Notice} (other : notice.isUpdating = false) :
    Keeps Still (note notice) := fun w => still_note w other

theorem sleep_still (id ms : Nat) : Keeps Still (sleep id ms) := fun w =>
  still_of w _ w.promises w.models rfl rfl

theorem modifyPromise_still (p : Nat) (f : Promise Verdict → Promise Verdict) :
    Keeps Still (modifyPromise p f) := fun w => still_of w w.schedule _ w.models rfl rfl

theorem endPromise_still (p : Nat) (value : Option Verdict) : Keeps Still (endPromise p value) :=
  fun w => still_updatePromise w p _

theorem cancelPromise_still (p : Nat) : Keeps Still (cancelPromise p) := fun w =>
  still_updatePromise w p _

/-- An observer that has no answer yet is told when there is one. -/
theorem exec_await (id p : Nat) (w : World) :
    exec (await id p) w = match w.promises[p]?.bind Promise.answer? with
      | none => (.ok none,{ w with promises := w.promises.modify p fun x => x.observe id })
      | some answer => (.ok (some answer),w) := by
  rw [await,exec_bind_ok (exec_get w)]
  rcases w.promises[p]?.bind Promise.answer? with _ | answer <;> rfl

theorem await_still (id p : Nat) : Keeps Still (await id p) := by
  intro w
  rw [exec_await]
  split
  · exact still_of w w.schedule _ w.models rfl rfl
  · exact Frame.refl w

theorem await_ok (id promise : Nat) (w : World) :
    ∃ answer v, exec (await id promise) w = (.ok answer,v) ∧ Still w v := by
  have still := await_still id promise w
  rw [exec_await] at still ⊢
  split at still
  · exact ⟨none,_,rfl,still⟩
  · exact ⟨_,w,rfl,still⟩

section Starts

variable {R : World → World → Prop} [Frame R]

theorem supersede_keeps (n : Nat) (notes : Keeps R (note .superseding))
    (links : ∀ f : Link → Link, (∀ l, (f l).core = l.core) → Keeps R (modifyLink n f))
    (cancels : ∀ p, Keeps R (cancelPromise p)) : Keeps R (supersede n) := by
  refine (reads_link n).keeps.bind fun l => ?_
  split
  · exact (reads_pure _).keeps
  · refine (links (fun l => { l with stop := none }) fun _ => rfl).bind fun _ => reads_get.keeps.bind fun w => ?_
    split
    · exact notes.bind fun _ => cancels _
    · exact cancels _

/-- What is kept by the cancelling of an attempt and by the making of a new one is kept by a start, whether
there is anything to run the attempt or not. -/
theorem startStop_keeps (n : Nat) (canSpawn : Bool) (notes : Keeps R (note .superseding))
    (links : ∀ f : Link → Link, (∀ l, (f l).core = l.core) → Keeps R (modifyLink n f))
    (cancels : ∀ p, Keeps R (cancelPromise p))
    (spawns : ∀ (w : World) plan, R w ({ w with promises := w.promises ++ [({} : Promise Verdict)] }.spawn none
      (.stop w.promises.length plan none))) : Keeps R (startStop n canSpawn) := by
  refine (reads_ensureAlive n).keeps.bind fun _ => (reads_link n).keeps.bind fun l => ?_
  extract_lets begins
  suffices began : ∀ r, Keeps R (begins r) by
    split
    · exact (reads_fail _).keeps.bind began
    · exact began ()
  refine fun _ => (supersede_keeps n notes links cancels).bind fun _ => ?_
  split
  · intro w
    rw [exec_bind_ok (exec_get w),exec_bind]
    rcases there : w.links[n]? with _ | l
    · rw [exec_link_none there]
      exact Frame.refl w
    · rw [exec_link_some there]
      dsimp only
      rw [exec_bind_ok (exec_set _ _),exec_bind_ok (exec_modifyLink _ _ _),exec_pure]
      exact Frame.trans (spawns w _) (links (fun l => { l with stop := some w.promises.length }) (fun _ => rfl) _)
  · exact (links (fun l => { l with stopPoisoned := true }) fun _ => rfl).bind fun _ => reads_crash.keeps

end Starts

theorem modifyLink_still (n : Nat) {f : Link → Link} (same : ∀ l, (f l).core = l.core) :
    Keeps Still (modifyLink n f) := fun w => still_modifyLink w n f same

theorem supersede_still (n : Nat) : Keeps Still (supersede n) :=
  supersede_keeps n (note_still rfl) (fun _ same => modifyLink_still n same) cancelPromise_still

theorem spawnStop_still (v : World) (plan : StopPlan) (promise : Nat) :
    Still v ({ v with promises := v.promises ++ [({} : Promise Verdict)] }.spawn none
      (.stop promise plan none)) :=
  { Quiet.refl v with
    tasks := ⟨[some { label := none, job := .stop promise plan none }],rfl,by simp⟩
    begun := rfl
    fed := rfl }

theorem startStop_still (n : Nat) (canSpawn : Bool) : Keeps Still (startStop n canSpawn) :=
  startStop_keeps n canSpawn (note_still rfl) (fun _ same => modifyLink_still n same) cancelPromise_still
    fun w plan => spawnStop_still w plan w.promises.length

theorem updates_uncache (m : Model) : (m.uncache.toOption.getD m).updates = m.updates := by
  rw [Model.uncache]
  split <;> rfl

theorem interval_uncache (m : Model) : (m.uncache.toOption.getD m).interval = m.interval := by
  rw [Model.uncache]
  split <;> rfl

theorem uncacheModel_cases (n : Nat) (w : World) :
    (∃ fault, exec (uncacheModel n) w = (.error fault,w)) ∨
      ∃ l, w.links[n]? = some l ∧ exec (uncacheModel n) w =
        (.ok (),(w.modifyModel l.model fun m => m.uncache.toOption.getD m).note .cacheCleared) := by
  rw [uncacheModel]
  rcases (reads_visit .modelUncache).bind_cases _ w with ⟨fault,failed⟩ | ⟨_,-,visited⟩
  · exact .inl ⟨fault,failed⟩
  · rw [visited]
    rcases (reads_link n).bind_cases _ w with ⟨fault,failed⟩ | ⟨l,found,looked⟩
    · exact .inl ⟨fault,failed⟩
    · rw [looked,exec_bind_ok (exec_get w)]
      rcases w.models[l.model]? with _ | m
      · exact .inl ⟨_,rfl⟩
      · dsimp only
        split
        · exact .inl ⟨_,rfl⟩
        · exact .inr ⟨l,link_ok found,rfl⟩

theorem uncacheModel_keeps {R : World → World → Prop} [Frame R] (n : Nat)
    (clears : ∀ (w : World) k, R w (w.modifyModel k fun m => m.uncache.toOption.getD m))
    (notes : ∀ w : World, R w (w.note .cacheCleared)) : Keeps R (uncacheModel n) := by
  intro w
  rcases uncacheModel_cases n w with ⟨fault,failed⟩ | ⟨l,-,cleared⟩
  · rw [failed]
    exact Frame.refl w
  · rw [cleared]
    exact Frame.trans (clears w l.model) (notes _)

theorem uncacheModel_still (n : Nat) : Keeps Still (uncacheModel n) :=
  uncacheModel_keeps n (fun w k => still_modifyModel w k _ updates_uncache interval_uncache) fun w =>
    still_note w rfl

/-- What is kept by the interrupting of a model, by sleeping and by the ending of a promise is kept by every
turn of a stop attempt. -/
theorem resumeStop_keeps {R : World → World → Prop} [Frame R] (id promise : Nat) (plan : StopPlan)
    (deadline : Option Nat) (notes : ∀ {notice : Notice}, notice.isUpdating = false → Keeps R (note notice))
    (interrupts : ∀ w : World, R w (w.modifyModel plan.model Model.interrupt))
    (attends : Keeps R (modifyPromise promise fun x => x.attend id)) (sleeps : ∀ ms, Keeps R (sleep id ms))
    (ends : ∀ value, Keeps R (endPromise promise value)) : Keeps R (resumeStop id promise plan deadline) := by
  have settles (value : Option Verdict) : Keeps R (do
      endPromise promise value
      pure (Next.finish none)) := (ends value).bind fun _ => (reads_pure _).keeps
  have checks (next : Nat) : Keeps R (checkStop id promise plan next) := by
    refine (reads_visit _).keeps.bind fun _ => reads_get.keeps.bind fun w => ?_
    split
    · exact (sleeps _).bind fun _ => (reads_pure _).keeps
    · split
      · exact (notes rfl).bind fun _ => settles _
      · exact settles _
  have deadlines : Keeps R (stopDeadline plan deadline) := by
    cases deadline with
    | some next => exact (reads_pure next).keeps
    | none =>
      exact (reads_visit _).keeps.bind fun _ => (keeps_modify interrupts).bind fun _ =>
        reads_now.keeps.bind fun _ => (reads_pure _).keeps
  refine reads_get.keeps.bind fun w => ?_
  split
  · exact (notes rfl).bind fun _ => settles none
  · exact attends.bind fun _ => (deadlines.bind checks).onCrash (ends none)

theorem resumeStop_still (id promise : Nat) (plan : StopPlan) (deadline : Option Nat) :
    Keeps Still (resumeStop id promise plan deadline) :=
  resumeStop_keeps id promise plan deadline (fun other => note_still other)
    (fun w => still_modifyModel w plan.model _ (fun _ => rfl) fun _ => rfl) (modifyPromise_still promise _)
    (sleep_still id) (endPromise_still promise)

theorem resumeWait_keeps {R : World → World → Prop} [Frame R] {id promise : Nat}
    (awaits : Keeps R (await id promise)) : Keeps R (resumeWait id promise) := by
  refine awaits.bind fun answer => ?_
  split <;> exact (reads_pure _).keeps

theorem resumeContinuation_keeps {R : World → World → Prop} [Frame R] {id promise : Nat}
    (awaits : Keeps R (await id promise)) : Keeps R (resumeContinuation id promise) := by
  refine awaits.bind fun answer => ?_
  split <;> exact (reads_pure _).keeps

section Updates

variable {R : World → World → Prop} [Frame R]

theorem feed_keeps (feeds : ∀ (w : World) k time text, R w (w.modifyModel k fun m => (m.update time text).2))
    (n : Nat) (text : String) : Keeps R (feed n text) :=
  (reads_model n).keeps.bind fun _ => reads_now.keeps.bind fun time =>
    Keeps.bind (keeps_modify fun w => feeds w n time text) fun _ => (reads_pure _).keeps

/-- What is kept by the noting of an update, by the feeding and the keeping busy of models and by
sleeping is kept by every turn of an update. -/
theorem resumeUpdate_keeps (id : Nat) (notes : ∀ (w : World) size, R w (w.note (.updating size)))
    (feeds : ∀ (w : World) k time text, R w (w.modifyModel k fun m => (m.update time text).2))
    (busies : ∀ (w : World) k time ms, R w (w.modifyModel k fun m => m.busyFor time ms))
    (sleeps : ∀ ms, Keeps R (sleep id ms)) (n : Nat) (phase : UpdatePhase) :
    Keeps R (resumeUpdate id n phase) := by
  have starts : Keeps R (startUpdate id n) := by
    refine (reads_ensureAlive n).keeps.bind fun _ => (reads_visit _).keeps.bind fun _ =>
      reads_get.keeps.bind fun w => ?_
    refine Keeps.bind (fun v => notes v _) fun _ => (reads_visit _).keeps.bind fun _ =>
      (reads_link n).keeps.bind fun l => (reads_model l.model).keeps.bind fun planned => ?_
    split
    · exact (reads_fail _).keeps
    · split
      · exact feed_keeps feeds l.model w.text
      · exact reads_now.keeps.bind fun time =>
          Keeps.bind (keeps_modify fun w => busies w l.model time planned.updateMillis) fun _ =>
            (sleeps _).bind fun _ => (reads_pure _).keeps
  cases phase with
  | fresh =>
    refine (reads_ensureAlive n).keeps.bind fun _ => (reads_link n).keeps.bind fun l =>
      (reads_model l.model).keeps.bind fun planned => ?_
    dsimp only
    split
    · exact starts
    · exact (sleeps _).bind fun _ => (reads_pure _).keeps
  | debouncing => exact starts
  | running text interrupts =>
    refine (reads_link n).keeps.bind fun l => (reads_model l.model).keeps.bind fun planned => ?_
    split
    · exact feed_keeps feeds l.model text
    · exact (reads_fail _).keeps

end Updates

theorem resumeUpdate_quiet (id n : Nat) (phase : UpdatePhase) :
    Keeps Quiet (resumeUpdate id n phase) :=
  resumeUpdate_keeps id (fun w _ => quiet_note w _) (fun w k _ _ => quiet_models w k fun _ => rfl)
    (fun w k _ _ => quiet_models w k fun _ => rfl) (fun ms w => (sleep_still id ms w).toQuiet) n phase

end Action
end EditorLink
