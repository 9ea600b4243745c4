import EditorLink.Proofs.Move

/-! Where the tasks of a world come from. A move gives a task a new job only where the job follows from
the old one, and every new task is one that a caller, a hook or a stop attempt starts. -/
namespace EditorLink
open World EditorLink.Action

namespace World

def requestIn (w : World) : Move → Option Nat
  | .perform _ c => w.requestOf c
  | _ => none

/-- A task that is found in its place after a move. -/
inductive Stems (w : World) : Move → Nat → Task → Prop
  | old (m : Move) (i : Nat) (t : Task) (there : w.tasks[i]? = some (some t)) : Stems w m i t
  | paused (i : Nat) (t : Task) (job : Job) (there : w.tasks[i]? = some (some t))
      (follows : t.job.Follows job) : Stems w (.turn i) i { t with job }
  | aborted (m : Move) (i : Nat) (t : Task) (label : Nat) (there : w.tasks[i]? = some (some t))
      (labelled : t.label = some label) : Stems w m i { t with aborted := true }
  | called (m : Move) (i number : Nat) (job : Job) (called : job.AsStarted) (new : w.tasks.length ≤ i)
      (registered : ∀ registry, job.registry? = some registry → registry < w.registries.length)
      (requested : ∀ n phase, job = .update n phase → w.requestIn m = some n) :
      Stems w m i { label := some number, job }
  | typed (m : Move) (i n : Nat) (new : w.tasks.length ≤ i) (requested : w.requestIn m = some n) :
      Stems w m i { label := none, job := .update n .fresh }
  | stop (m : Move) (i promise : Nat) (plan : StopPlan) (new : w.tasks.length ≤ i) :
      Stems w m i { label := none, job := .stop promise plan none }

end World

namespace Action

theorem serves_tasks (n : Nat) : Serves n StopsAdded := by
  refine serves_of_handling (fun handling => .of_eq (by rw [handling.same])) (fun _ _ => .of_eq rfl)
    (fun id promise _ => (await_still id promise).mono fun still => still.tasks)
    ((startStop_still n true).mono fun still => still.tasks)
    ((uncacheModel_still n).mono fun still => still.tasks)

/-- During its turn a task starts no other task than stop attempts. -/
theorem resume_tasks (id : Nat) (job : Job) : Keeps StopsAdded (resume id job) := by
  refine resume_serves id job ?_ (fun n _ => serves_tasks n) ?_ ?_ ?_
  · intro n phase _
    exact (resumeUpdate_quiet id n phase).mono fun quiet => quiet.tasks
  · intro registry name _
    have registers : Keeps StopsAdded (register registry) :=
      register_keeps registry (fun _ => .of_eq rfl) fun _ _ _ => .of_eq rfl
    exact resumeCreate_fresh_keeps registry registers serves_tasks id name
  · intro promise plan deadline _
    exact (resumeStop_still id promise plan deadline).mono fun still => still.tasks
  · intro promise
    exact (await_still id promise).mono fun still => still.tasks

end Action

namespace World

theorem StopsAdded.stems {v w : World} (added : StopsAdded v w) {i : Nat} {t : Task}
    (there : w.tasks[i]? = some (some t)) (m : Move) : v.Stems m i t := by
  obtain ⟨stops,same,fromStops⟩ := added
  rw [same,List.getElem?_append] at there
  split at there
  · exact .old m i t there
  · rename_i new
    obtain ⟨promise,plan,stop⟩ := fromStops _ (List.mem_of_getElem? there)
    cases stop
    exact .stop m i promise plan (Nat.not_lt.mp new)

theorem stems_appended {w v : World} {m : Move} {t u : Task} {i : Nat} (same : v.tasks = w.tasks ++ [some u])
    (new : w.tasks.length ≤ i → w.Stems m i u) (there : v.tasks[i]? = some (some t)) : w.Stems m i t := by
  rw [same,List.getElem?_append] at there
  split at there
  · exact .old m i t there
  · rename_i late
    obtain rfl : t = u := by simpa using List.mem_of_getElem? there
    exact new (Nat.not_lt.mp late)

theorem remove_here {w : World} {id : Nat} {t : Task} : (w.remove id).tasks[id]? ≠ some (some t) := by
  simp [remove,List.getElem?_set]

theorem conclude_here {id : Nat} {label : Option Nat} {r : Except Fault Next} {w : World} {t : Task}
    (there : (conclude id label (r,w)).tasks[id]? = some (some t)) :
    ∃ u, w.tasks[id]? = some (some u) ∧ r = .ok (.pause t.job) ∧ t = { u with job := t.job } := by
  rcases r with (e | _) | job | _ | r
  · exact absurd there remove_here
  · exact absurd there remove_here
  · simp only [conclude,setJob,List.getElem?_modify_eq,Option.map_eq_map,Option.map_eq_some_iff] at there
    obtain ⟨task?,before,u,rfl,rfl⟩ := there
    exact ⟨u,before,rfl,rfl⟩
  · exact absurd there remove_here
  · exact absurd there remove_here

theorem aborted_here {w : World} {id : Nat} {u t : Task} :
    (w.pollAborted id u).tasks[id]? ≠ some (some t) := by
  unfold pollAborted
  split
  · exact remove_here
  · exact remove_here

/-- There is no task to have a turn, or the task is dropped, or it goes on. -/
theorem turn_cases (w : World) (id : Nat) :
    (∀ t, w.tasks[id]? ≠ some (some t)) ∧ w.turn id = w.taken id ∨ ∃ t, w.tasks[id]? = some (some t) ∧
      (t.aborted = true ∧ w.turn id = (w.taken id).pollAborted id t ∨ t.aborted = false) := by
  rcases found : w.tasks[id]?.join with _ | t
  · exact .inl ⟨fun t there => by simp [there] at found,turn_idle found⟩
  · have there := Option.join_eq_some_iff.mp found
    refine .inr ⟨t,there,?_⟩
    cases aborted : t.aborted with
    | true => exact .inl ⟨rfl,turn_aborted there aborted⟩
    | false => exact .inr rfl

theorem turn_ran {w : World} {id : Nat} {u : Task} (there : w.tasks[id]? = some (some u))
    (active : u.aborted = false) : ∃ r v, exec (resume id u.job) (w.taken id) = (r,v) ∧ StopsAdded w v ∧
      v.tasks[id]? = some (some u) ∧ w.turn id = conclude id u.label (r,v) := by
  have added : StopsAdded w (exec (resume id u.job) (w.taken id)).2 := resume_tasks id u.job (w.taken id)
  exact ⟨_,_,rfl,added,added.task there,turn_active there active⟩

/-- Where a task is left after its turn, it has come to a pause. -/
theorem turn_here {w : World} {id : Nat} {t : Task} (there : (w.turn id).tasks[id]? = some (some t)) :
    ∃ u v, w.tasks[id]? = some (some u) ∧ u.aborted = false ∧ t = { u with job := t.job } ∧
      exec (resume id u.job) (w.taken id) = (.ok (.pause t.job),v) ∧
      w.turn id = conclude id u.label (.ok (.pause t.job),v) := by
  rcases turn_cases w id with ⟨empty,same⟩ | ⟨task,found,⟨-,same⟩ | active⟩
  · rw [same] at there
    exact absurd there (empty t)
  · rw [same] at there
    exact absurd there aborted_here
  · obtain ⟨r,v,ran,-,kept,turned⟩ := turn_ran found active
    rw [turned] at there
    obtain ⟨u,before,paused,same⟩ := conclude_here there
    rw [kept] at before
    cases before
    rw [paused] at ran turned
    exact ⟨_,v,found,active,same,ran,turned⟩

theorem turn_goes_on {w : World} {id : Nat} {u : Task} (there : w.tasks[id]? = some (some u))
    (active : u.aborted = false) (lasts : (w.turn id).tasks[id]? ≠ some none) :
    ∃ job, (w.turn id).tasks[id]? = some (some { u with job }) := by
  obtain ⟨r,v,-,-,kept,turned⟩ := turn_ran there active
  by_cases paused : ∃ job, r = .ok (.pause job)
  · obtain ⟨job,rfl⟩ := paused
    rw [turned]
    exact ⟨job,conclude_paused kept u.label job⟩
  · refine absurd ?_ lasts
    rw [turned]
    exact conclude_ended (List.getElem?_eq_some_iff.mp kept).1 u.label fun job same => paused ⟨job,same⟩

theorem turn_stems {w : World} {id i : Nat} {t : Task} (there : (w.turn id).tasks[i]? = some (some t)) :
    w.Stems (.turn id) i t := by
  by_cases here : i = id
  · subst here
    obtain ⟨u,v,found,-,same,ran,-⟩ := turn_here there
    have follows := resume_yieldsNext i u.job (w.taken i) (.pause t.job) v ran
    rw [same]
    exact .paused i u t.job found follows
  · rcases turn_cases w id with ⟨-,same⟩ | ⟨task,found,⟨-,same⟩ | active⟩
    · rw [same] at there
      exact .old _ i t there
    · rw [same,aborted_others here] at there
      exact .old _ i t there
    · obtain ⟨r,v,-,added,-,turned⟩ := turn_ran found active
      rw [turned,conclude_others here] at there
      exact added.stems there _

theorem perform_stems {w : World} {number : Nat} {c : Command} (single : ∀ ms, c ≠ .advance ms)
    {i : Nat} {t : Task} (there : (w.perform number c).2.tasks[i]? = some (some t)) :
    w.Stems (.perform number c) i t := by
  have does := perform_does w number c single
  generalize (w.perform number c).2 = v at does there
  cases does with
  | nothing => exact .old _ i t there
  | outside o =>
    rcases requested : w.requestOf (.outside o) with _ | n
    · rw [change_tasks,requested,Option.toList_none,List.map_nil,List.append_nil] at there
      exact .old _ i t there
    · refine stems_appended (v := (w.change o).2) ?_ (fun new => .typed _ i n new requested) there
      rw [change_tasks,requested]
      rfl
  | started c job called held registered requested =>
    exact stems_appended rfl (fun new => .called _ i number job called new registered requested) there
  | named c n name held => exact .old _ i t there
  | dropped name => exact .old _ i t there
  | switched name on n found =>
    rw [(setLive_handling on w).same] at there
    exact .old _ i t there
  | killed name n found =>
    rw [(kill_handling w).same] at there
    exact .old _ i t there
  | stopped name canSpawn n handles => exact (startStop_still n canSpawn w).tasks.stems there _
  | cancelled handle promise =>
    have same : (w.updatePromise promise Promise.cancel).tasks = w.tasks := by
      unfold updatePromise
      split <;> rfl
    rw [same] at there
    exact .old _ i t there
  | released handle handles => exact .old _ i t there
  | aborted label =>
    unfold abort at there
    split at there
    · exact .old _ i t there
    · rename_i id found
      simp only [List.getElem?_modify,Option.map_eq_map,Option.map_eq_some_iff] at there
      obtain ⟨task?,before,same⟩ := there
      split at same
      · rename_i here
        subst here
        obtain ⟨u,rfl,rfl⟩ := Option.map_eq_some_iff.mp same
        obtain ⟨inside,labelled,-⟩ := List.findIdx?_eq_some_iff_getElem.mp found
        obtain ⟨_,own⟩ := List.getElem?_eq_some_iff.mp before
        rw [own] at labelled
        exact .aborted _ id u label before (by simpa using labelled)
      · subst same
        exact .old _ i t before

variable {w : World} {m : Move}

theorem move_stems (single : m.Single) {i : Nat} {t : Task}
    (there : (w.move m).tasks[i]? = some (some t)) : w.Stems m i t := by
  cases m with
  | perform number c => exact perform_stems (fun ms same => single number ms (by rw [same])) there
  | turn id => exact turn_stems there
  | arrive now => exact .old _ i t there

theorem turn_others {id i : Nat} {x : Option Task} (there : w.tasks[i]? = some x) (other : i ≠ id) :
    (w.turn id).tasks[i]? = some x := by
  rcases turn_cases w id with ⟨-,same⟩ | ⟨t,found,⟨-,same⟩ | active⟩
  · rw [same]
    exact there
  · rw [same,aborted_others other]
    exact there
  · obtain ⟨r,v,-,added,-,turned⟩ := turn_ran found active
    rw [turned,conclude_others other]
    exact added.task there

/-- A command leaves every task as it is, except for the one that it drops. -/
theorem perform_others {number i : Nat} {c : Command} {x : Option Task} (single : ∀ ms, c ≠ .advance ms)
    (there : w.tasks[i]? = some x) : (w.perform number c).2.tasks[i]? = some x ∨
      ∃ t label, x = some t ∧ t.label = some label ∧ c = .abort label ∧
        (w.perform number c).2.tasks[i]? = some (some { t with aborted := true }) := by
  have does := perform_does w number c single
  generalize (w.perform number c).2 = v at does ⊢
  cases does with
  | nothing => exact .inl there
  | outside o =>
    rcases (change_around w o).tasks with same | ⟨n,_,_,_,_,_,_,same⟩
    · exact .inl (same ▸ there)
    · exact .inl (by rw [same,getElem?_append_some there])
  | started c job called held registered => exact .inl (getElem?_append_some there _)
  | named c n name held => exact .inl there
  | dropped name => exact .inl there
  | switched name on n found => exact .inl (by rw [(setLive_handling on w).same]; exact there)
  | killed name n found => exact .inl (by rw [(kill_handling w).same]; exact there)
  | stopped name canSpawn n handles => exact .inl ((startStop_still n canSpawn w).tasks.task there)
  | cancelled handle promise =>
    refine .inl (Eq.trans ?_ there)
    unfold updatePromise
    split <;> rfl
  | released handle handles => exact .inl there
  | aborted label =>
    unfold abort
    split
    · exact .inl there
    · rename_i id found
      by_cases here : id = i
      · subst here
        obtain ⟨inside,labelled,-⟩ := List.findIdx?_eq_some_iff_getElem.mp found
        obtain ⟨_,same⟩ := List.getElem?_eq_some_iff.mp there
        rw [same] at labelled
        obtain ⟨t,rfl,named⟩ := (Option.any_eq_true _ _).mp labelled
        exact .inr ⟨t,label,rfl,by simpa using named,rfl,by simp [there]⟩
      · exact .inl (by simp [here,there])

/-- A task is left alone by all moves but its own turns and its being dropped. -/
theorem move_others {i : Nat} {x : Option Task} (single : m.Single) (there : w.tasks[i]? = some x)
    (other : m ≠ .turn i) : (w.move m).tasks[i]? = some x ∨
      ∃ t label number, x = some t ∧ t.label = some label ∧ m = .perform number (.abort label) ∧
        (w.move m).tasks[i]? = some (some { t with aborted := true }) := by
  cases m with
  | perform number c =>
    have plain (ms : Nat) : c ≠ .advance ms := fun same => single number ms (by rw [same])
    rcases perform_others plain there with same | aborted
    · exact .inl same
    · obtain ⟨t,label,rfl,labelled,rfl,after⟩ := aborted
      exact .inr ⟨t,label,number,rfl,labelled,rfl,after⟩
  | turn id => exact .inl (turn_others there fun same => other (by rw [same]))
  | arrive now => exact .inl there

/-- A task that has ended stays so. -/
theorem move_ended {i : Nat} (single : m.Single) (there : w.tasks[i]? = some none) :
    (w.move m).tasks[i]? = some none := by
  by_cases own : m = .turn i
  · subst own
    have idle : w.turn i = w.taken i := turn_idle (by rw [there]; rfl)
    rw [move,idle]
    exact there
  · rcases move_others single there own with same | ⟨t,_,_,ended,-⟩
    · exact same
    · cases ended

def Everyone (P : Task → Prop) (w : World) : Prop :=
  ∀ (i : Nat) (t : Task), w.tasks[i]? = some (some t) → P t

theorem everyone_of_reached {P : Task → Prop}
    (paused : ∀ t job, P t → t.job.Follows job → P { t with job })
    (aborted : ∀ t label, P t → t.label = some label → P { t with aborted := true })
    (called : ∀ number job, job.AsStarted → P { label := some number, job })
    (typed : ∀ n, P { label := none, job := .update n .fresh })
    (stop : ∀ promise plan, P { label := none, job := .stop promise plan none })
    {s : Setting} {w : World} (reached : Reaches (fun _ => True) s.start w) : w.Everyone P := by
  have kept : s.start.Everyone P → w.Everyone P := by
    refine run_keeps (R := fun v w => v.Everyone P → w.Everyone P) (fun _ _ => trivial) ?_ reached
    intro v m _ single everyone i t there
    cases move_stems single there with
    | old _ _ _ before => exact everyone i t before
    | paused _ u job before follows => exact paused u job (everyone i u before) follows
    | aborted _ _ u label before labelled => exact aborted u label (everyone i u before) labelled
    | called _ _ number job fits _ _ => exact called number job fits
    | typed _ _ n _ => exact typed n
    | stop _ _ promise plan _ => exact stop promise plan
  apply kept
  intro i t there
  cases there

end World
end EditorLink
