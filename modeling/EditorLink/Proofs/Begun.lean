import EditorLink.Proofs.Clearing
import EditorLink.Proofs.Singleton
import EditorLink.Proofs.Window

/-! Where a teardown that waits comes from: it began in an earlier turn of its own task. What it waits for
is the stop attempt that it started in that turn, and a creation has made its link in the same turn. -/
namespace EditorLink
open World EditorLink.Action

/-- The job as it was before its teardown began. -/
def Job.unbegun : Job → Job
  | .uncache n _ => .uncache n none
  | .create registry name _ => .create registry name none
  | job => job

/-- A task with this label began its teardown in a turn that left it with this job. -/
def BegunTeardown (allowed : Move → Prop) (s : Setting) (w : World) (id : Nat) (label : Option Nat)
    (job : Job) : Prop :=
  ∃ v, Reaches allowed s.start v ∧ v.tasks[id]? = some (some { label, job := job.unbegun }) ∧
    (v.turn id).tasks[id]? = some (some { label, job }) ∧ Reaches allowed (v.turn id) w

variable {s : Setting} {v w : World} {id n p : Nat} {label : Option Nat} {job : Job} {allowed : Move → Prop}

theorem BegunTeardown.later (begun : BegunTeardown allowed s v id label job) (reached : Reaches allowed v w) :
    BegunTeardown allowed s w id label job := by
  obtain ⟨u,before,fresh,after,since⟩ := begun
  exact ⟨u,before,fresh,after,Frame.trans since reached⟩

/-- A teardown that waits after a move has been waiting for the same attempt, or begins in this turn. -/
theorem awaits_before {m : Move} {t : Task} (single : m.Single) (there : (w.move m).tasks[id]? = some (some t))
    (awaits : t.job.awaits? = some (n,p)) :
    (∃ u, w.tasks[id]? = some (some u) ∧ u.label = t.label ∧ u.job = t.job) ∨
      m = .turn id ∧ w.tasks[id]? = some (some { label := t.label, job := t.job.unbegun }) ∧
        (w.turn id).tasks[id]? = some (some { label := t.label, job := t.job }) := by
  cases move_stems single there with
  | old _ _ _ old => exact .inl ⟨t,old,rfl,rfl⟩
  | aborted _ _ u _ old _ => exact .inl ⟨u,old,rfl,rfl⟩
  | called _ _ number job called _ _ => cases called.waitless.symm.trans awaits
  | typed _ _ _ _ => cases awaits
  | stop _ _ _ _ _ => cases awaits
  | paused i u job old follows =>
    obtain ⟨u',x,found,active,-,ran,-⟩ := turn_here there
    rw [old] at found
    cases found
    rcases resume_paused ran awaits with ⟨same,-⟩ | ⟨y,z,begins,-⟩
    · exact .inl ⟨u,old,rfl,same.symm⟩
    · obtain ⟨label,first,aborted⟩ := u
      cases active
      have fresh : job.unbegun = first := by
        dsimp only at begins follows
        rcases begins with ⟨rfl,-⟩ | ⟨_,_,_,rfl,-⟩ <;> cases follows <;> rfl
      exact .inr ⟨rfl,by rw [fresh]; exact old,there⟩

theorem begun_of_reached (internal : ∀ m, m.Internal → allowed m) (reached : Reaches allowed s.start w)
    {t : Task} (there : w.tasks[id]? = some (some t)) (awaits : t.job.awaits? = some (n,p)) :
    BegunTeardown allowed s w id t.label t.job := by
  let Known (w : World) : Prop := Reaches allowed s.start w ∧
    ∀ i t n p, w.tasks[i]? = some (some t) → t.job.awaits? = some (n,p) → BegunTeardown allowed s w i t.label t.job
  have known : Known s.start → Known w := by
    refine run_keeps (R := fun v w => Known v → Known w) internal ?_ reached
    rintro v m fine single ⟨before,begun⟩
    have moved : Reaches allowed v (v.move m) := reaches_move v m fine
    refine ⟨Frame.trans before moved,fun i t n p there awaits => ?_⟩
    rcases awaits_before single there awaits with ⟨u,old,label,job⟩ | ⟨rfl,fresh,after⟩
    · rw [← job] at awaits
      rw [← label,← job]
      exact (begun i u n p old awaits).later moved
    · exact ⟨v,before,fresh,after,Frame.refl _⟩
  exact (known ⟨Frame.refl _,nofun⟩).2 id t n p there awaits

/-- The turn has started one stop attempt, and the link's teardown waits for that one. -/
structure Launches (v w : World) (n p : Nat) : Prop where
  number : p = v.promises.length
  size : w.promises.length = v.promises.length + 1
  stop : w.stopOf n = some p

theorem startStop_launches (ran : exec (startStop n true) v = (.ok p,w)) : Launches v w n p := by
  have stop := (startStop_new ran).1
  rcases startStop_cases n true v with ⟨fault,refused⟩ | ⟨l,u,there,-,released,started⟩
  · rw [refused] at ran
    cases ran
  · have size : u.promises.length = v.promises.length := by
      rw [← outcomes_length,← outcomes_length,released.outcomes]
      split
      · rfl
      · exact List.length_modify _ _ _
    rw [started] at ran
    cases ran
    exact ⟨size,by simp [attempted,World.modifyLink,spawn,size],stop⟩

theorem Job.unbegun_waitless (job : Job) : job.unbegun.awaits? = none := by
  cases job <;> rfl

/-- What is known of the turn in which a teardown has begun. -/
theorem turn_began (job : Job) (there : v.tasks[id]? = some (some { label, job := job.unbegun }))
    (after : (v.turn id).tasks[id]? = some (some { label, job })) (awaits : job.awaits? = some (n,p)) :
    ∃ x y z, Begins job.unbegun n (v.taken id) x ∧ exec (beginTeardown n) x = (.ok p,y) ∧ Waits id p y z ∧
      v.turn id = conclude id label (.ok (.pause job),z) := by
  obtain ⟨u,z,found,-,-,ran,turned⟩ := turn_here after
  rw [there] at found
  cases found
  rcases resume_paused ran awaits with ⟨same,-⟩ | ⟨x,y,begins,begun,waits⟩
  · have waitless := job.unbegun_waitless
    dsimp only at same
    rw [← same,awaits] at waitless
    cases waitless
  · exact ⟨x,y,z,begins,begun,waits,turned⟩

theorem beginTeardown_starts (begun : exec (beginTeardown n) v = (.ok p,w)) :
    ∃ u, Handling n false v u ∧ exec (startStop n true) u = (.ok p,w) := by
  obtain ⟨u,cleared,started⟩ := beginTeardown_ok begun
  have handled : Handling n false v (exec (clearHook n) v).2 := clearHook_handling v
  rw [cleared] at handled
  exact ⟨u,handled,started⟩

theorem turn_launches (there : v.tasks[id]? = some (some { label, job := job.unbegun }))
    (after : (v.turn id).tasks[id]? = some (some { label, job })) (awaits : job.awaits? = some (n,p)) :
    Launches v (v.turn id) n p := by
  obtain ⟨x,y,z,begins,begun,waits,turned⟩ := turn_began job there after awaits
  obtain ⟨u,handled,started⟩ := beginTeardown_starts begun
  obtain ⟨same,size⟩ := waits_same waits
  have launched := startStop_launches started
  have promises : x.promises = v.promises := by
    rcases begins with ⟨-,rfl⟩ | ⟨_,_,_,-,-,-,rfl⟩
    · rfl
    · rfl
  have before : u.promises.length = v.promises.length := by rw [handled.same,promises]
  have entities := conclude_sameEntities id label (.ok (.pause job)) z
  have links : z.links = y.links := by rw [same]
  rw [turned]
  refine ⟨launched.number.trans before,?_,?_⟩
  · rw [conclude_promises,size,launched.size,before]
  · rw [stopOf,entities.links,links]
    exact launched.stop

/-- The task of the attempt that a turn has started has yet to have its first turn, and is ready for it. -/
def Spawns (w : World) (p : Nat) : Prop :=
  ∃ id plan, w.Pursues id p plan none ∧ id ∈ w.schedule.ready

theorem startStop_spawns (ran : exec (startStop n true) v = (.ok p,w)) :
    ∃ id plan, v.tasks.length ≤ id ∧ w.Pursues id p plan none ∧ id ∈ w.schedule.ready := by
  rcases startStop_cases n true v with ⟨fault,refused⟩ | ⟨l,u,-,-,released,started⟩
  · rw [refused] at ran
    cases ran
  · rw [started] at ran
    cases ran
    have tasks : v.tasks.length = u.tasks.length := by rw [released.same]
    refine ⟨u.tasks.length,_,Nat.le_of_eq tasks,pursues_attempted.mpr (.inr ⟨rfl,rfl,rfl,rfl⟩),?_⟩
    exact (Schedule.mem_wake _ _ _).mpr (.inr rfl)

theorem turn_spawns (there : v.tasks[id]? = some (some { label, job := job.unbegun }))
    (after : (v.turn id).tasks[id]? = some (some { label, job })) (awaits : job.awaits? = some (n,p)) :
    Spawns (v.turn id) p := by
  obtain ⟨x,y,z,begins,begun,waits,turned⟩ := turn_began job there after awaits
  obtain ⟨u,handled,started⟩ := beginTeardown_starts begun
  obtain ⟨i,plan,new,pursues,ready⟩ := startStop_spawns started
  obtain ⟨same,-⟩ := waits_same waits
  have other : i ≠ id := by
    have tasks : u.tasks = v.tasks := by
      rw [handled.same]
      rcases begins with ⟨-,rfl⟩ | ⟨_,_,_,-,-,-,rfl⟩ <;> rfl
    have known := (List.getElem?_eq_some_iff.mp there).1
    rw [tasks] at new
    omega
  have tasks : z.tasks = y.tasks := by rw [same]
  have schedule : z.schedule = y.schedule := by rw [same]
  rw [turned]
  refine ⟨i,plan,?_,?_⟩
  · rw [Pursues,conclude_others other,tasks]
    exact pursues
  · have kept : (conclude id label (.ok (.pause job),z)).schedule = z.schedule := rfl
    rw [kept,schedule]
    exact ready

/-- The turn has made the link, and the registry tells of it. -/
structure Registers (v w : World) (registry n : Nat) : Prop where
  number : n = v.links.length
  links : w.links.length = v.links.length + 1
  last : w.lastOf registry = some n

theorem turn_registers {registry : Nat} {name : String}
    (there : v.tasks[id]? = some (some { label, job := .create registry name none }))
    (after : (v.turn id).tasks[id]? = some (some { label, job := .create registry name (some (n,p)) })) :
    Registers v (v.turn id) registry n := by
  obtain ⟨x,y,z,begins,begun,waits,turned⟩ :=
    turn_began (.create registry name (some (n,p))) there after rfl
  rcases begins with ⟨same,-⟩ | ⟨other,_,r,same,known,number,rfl⟩
  · cases same
  · cases same
    have handsOut := beginTeardown_keeps (tends_handsOutOnly n).serves.toPrepares ((v.taken id).withLink registry r)
    rw [begun] at handsOut
    have quiet := waits_quiet waits
    obtain ⟨registries,links,-⟩ := conclude_same id label (.ok (.pause _)) z
    rw [turned]
    refine ⟨number,?_,?_⟩
    · rw [links,quiet.size,handsOut.size]
      simp [withLink,World.taken]
    · rw [lastOf,registries,quiet.registries,handsOut.registries,number]
      exact (lastOf_withLink known registry).trans (if_pos rfl)

end EditorLink
