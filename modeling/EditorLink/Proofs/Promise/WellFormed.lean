import EditorLink.Proofs.Promise.Move

/-! Whatever is done, every number stands for one task, every promise has one computation at most, and
no observer is forgotten. -/
namespace EditorLink.Promise
variable {α : Type}

/-- An observer speaks only when it ends, and a computation not before its first turn. -/
def Job.SilentSoFar : Job α → Prop
  | .compute _ sleeping _ _ => sleeping = false
  | .outcome _ => True
  | .continuation _ _ => True

namespace Session
variable {s t : Session α}

/-- What holds of a task that has not ended. -/
structure Fit (s : Session α) (id : Nat) (task : Task α) : Prop where
  observer : task.label ∈ s.observers ↔ task.job.owns? = none
  silent : task.job.SilentSoFar → s.heard task.label = []
  owner : ∀ p, task.job.owns? = some p → task.aborted = false ∧
    ∃ q, s.promises[p]? = some q ∧ q.pending = true ∧ q.value = none
  told : ∀ p, task.job.observes? = some p → (∃ q, s.promises[p]? = some q) ∧ s.ReadyOrWaits id p ∧
    (task.aborted = true → id ∈ s.schedule.ready)

structure WellFormed (s : Session α) : Prop where
  fit : ∀ id task, s.tasks[id]? = some (some task) → Fit s id task
  labels : ∀ (i j : Nat) (a b : Task α), s.tasks[i]? = some (some a) → s.tasks[j]? = some (some b) →
    a.label = b.label → i = j
  owners : ∀ (i j : Nat) (a b : Task α) (p : Nat), s.tasks[i]? = some (some a) → s.tasks[j]? = some (some b) →
    a.job.owns? = some p → b.job.owns? = some p → i = j
  handles : ∀ h ∈ s.handles, h.2 < s.promises.length

theorem Fit.apart {mine speaks delivers : Nat → Prop} {id : Nat} {task : Task α} (fit : Fit s id task)
    (apart : Apart mine speaks delivers s t) (other : ¬ mine id) (hushed : ¬ speaks task.label)
    (foreign : ∀ p, task.job.owns? = some p → ¬ delivers p)
    (back : task.label ∈ t.observers → task.label ∈ s.observers) : Fit t id task where
  observer := by
    rw [← fit.observer]
    exact ⟨back,apart.observers _⟩
  silent mute := (apart.heard _ hushed).trans (fit.silent mute)
  owner p owns := by
    obtain ⟨active,q,found,pending,value⟩ := fit.owner p owns
    obtain ⟨r,later,-,kept⟩ := apart.promise p q found
    obtain ⟨value',pending'⟩ := kept (foreign p owns)
    exact ⟨active,r,later,pending'.trans pending,value'.trans value⟩
  told p observes := by
    obtain ⟨⟨q,found⟩,told,wakes⟩ := fit.told p observes
    obtain ⟨r,later,-⟩ := apart.promise p q found
    exact ⟨⟨r,later⟩,apart.told id p other told,fun aborted => apart.ready id other (wakes aborted)⟩

theorem WellFormed.hushed {m : Move α} {id : Nat} {task : Task α} (wellFormed : WellFormed s)
    (there : s.tasks[id]? = some (some task)) (other : ¬ s.Mine m id) : ¬ s.Speaks m task.label := by
  rintro ⟨k,actor,rfl,here,same⟩
  obtain rfl := wellFormed.labels k id actor task here there same
  exact other (.inl rfl)

theorem WellFormed.foreign {m : Move α} {id p : Nat} {task : Task α} (wellFormed : WellFormed s)
    (there : s.tasks[id]? = some (some task)) (other : ¬ s.Mine m id)
    (owns : task.job.owns? = some p) : ¬ s.Computes m p := by
  rintro ⟨k,actor,rfl,here,mine⟩
  obtain rfl := wellFormed.owners k id actor task p here there mine owns
  exact other (.inl rfl)

theorem WellFormed.back {m : Move α} {id : Nat} {task : Task α} (fits : s.Fits m)
    (there : s.tasks[id]? = some (some task)) (member : task.label ∈ (s.move m).observers) :
    task.label ∈ s.observers := by
  rcases observers_after fits member with old | ⟨command,rfl⟩
  · exact old
  · exact absurd rfl (fits.1.tasks id task there)

theorem modify_here {promise : Nat} {p : Promise α} (there : s.promises[promise]? = some p)
    (f : Promise α → Promise α) : (s.modify promise f).promises[promise]? = some (f p) := by
  simp [modify,there]

theorem WellFormed.fit_observer {id label promise : Nat} {job : Job α} {aborted : Bool} {task : Task α}
    (wellFormed : WellFormed s) (here : s.tasks[id]? = some (some ⟨label,job,aborted⟩))
    (observes : job.observes? = some promise)
    (there : (s.turn id).tasks[id]? = some (some task)) : Fit (s.turn id) id task := by
  have fit := wellFormed.fit id _ here
  obtain ⟨⟨q,found⟩,-⟩ := fit.told promise observes
  rcases turn_observes here observes with ⟨gone,-⟩ | ⟨active,waits,stays⟩
  · simp [there] at gone
  rw [stays] at there ⊢
  have same : s.tasks[id]? = some (some task) := there
  obtain rfl : task = _ := by simpa [here] using same.symm
  have noted := modify_here (s := s.taken id) found fun p => p.observe id
  have unanswered : q.answer? = none := by simpa [answer?,found] using waits
  refine ⟨fit.observer,fit.silent,fun p owns => ?_,fun p again => ?_⟩
  · cases job with
    | compute => cases observes
    | outcome => cases owns
    | continuation => cases owns
  · obtain rfl : promise = p := by simpa [observes] using again
    refine ⟨⟨_,noted⟩,.inr ⟨_,noted,unanswered,?_,?_⟩,fun lost => ?_⟩
    · simp [observe]
    · simp [observe]
    · simp [active] at lost

/-- The task that has its turn and is there afterwards still fits. -/
theorem WellFormed.fit_turn {id : Nat} {task : Task α} (wellFormed : WellFormed s)
    (there : (s.turn id).tasks[id]? = some (some task)) : Fit (s.turn id) id task := by
  rcases turn_idle s id with ⟨⟨label,job,aborted⟩,here⟩ | ⟨nobody,idle⟩
  case inr =>
    rw [idle] at there
    exact absurd there (nobody task)
  have fit := wellFormed.fit id _ here
  have leaves := turn_leavesRest here
  cases job with
  | compute promise sleeping stages result =>
    obtain ⟨active,q,found,pending,value⟩ := fit.owner promise rfl
    obtain rfl : aborted = false := active
    rcases turn_computing here found with ⟨-,-,ends,-⟩ | ⟨-,⟨ends,-⟩ | ⟨rest,r,goes_on,later,same⟩⟩
    · simp [there] at ends
    · simp [there] at ends
    obtain rfl : task = _ := by simpa [there] using goes_on
    refine ⟨?_,nofun,?_,nofun⟩
    · rw [leaves.observers]
      exact fit.observer
    · intro p owns
      cases owns
      exact ⟨rfl,r,later,same.2.trans pending,same.1.trans value⟩
  | outcome promise => exact wellFormed.fit_observer here rfl there
  | continuation promise sequel => exact wellFormed.fit_observer here rfl there

theorem WellFormed.fit_new {number : Nat} {command : Command α} {task : Task α} (wellFormed : WellFormed s)
    (fits : s.Fits (.perform number command))
    (there : (s.move (.perform number command)).tasks[s.tasks.length]? = some (some task)) :
    Fit (s.move (.perform number command)) s.tasks.length task := by
  generalize after : s.move (.perform number command) = t at there ⊢
  have done := performed fits
  rw [after] at done
  cases done with
  | nothing => simp at there
  | handles => simp at there
  | cancel => simp at there
  | spawn stages result =>
    obtain rfl : Task.mk number (.compute s.promises.length false stages result) false = task := by
      simpa [spawn] using there
    refine ⟨?_,fun _ => fits.1.heard,?_,?_⟩
    · exact ⟨fun member => absurd member fits.1.observers,fun free => by cases free⟩
    · intro p owns
      cases owns
      exact ⟨rfl,{},by simp [spawn],rfl,rfl⟩
    · intro p observes
      cases observes
  | observe command job promise observes known =>
    obtain rfl : Task.mk number job false = task := by simpa [observer,spawn] using there
    have free : job.owns? = none := by
      cases job with
      | compute => cases observes
      | outcome => rfl
      | continuation => rfl
    refine ⟨?_,fun _ => fits.1.heard,fun p owns => ?_,fun p same => ?_⟩
    · exact ⟨fun _ => free,fun _ => by simp [observer,spawn]⟩
    · rw [free] at owns
      cases owns
    · obtain rfl : promise = p := by simpa [observes] using same
      obtain ⟨g,member,rfl⟩ := known
      have inside := wellFormed.handles g member
      exact ⟨⟨s.promises[g.2],by simp [observer,spawn,inside]⟩,.inl (by simp [observer,spawn]),fun aborted => by cases aborted⟩
  | abort n known =>
    rcases abort_cases s n with same | ⟨_,_,_,_,made⟩
    · simp [same] at there
    · simp [made] at there

theorem WellFormed.fit_abort {number id : Nat} {before task : Task α} (wellFormed : WellFormed s)
    (fits : s.Fits (.perform number (.abort before.label)))
    (here : s.tasks[id]? = some (some before))
    (there : (s.move (.perform number (.abort before.label))).tasks[id]? = some (some task)) :
    Fit (s.move (.perform number (.abort before.label))) id task := by
  have fit := wellFormed.fit id before here
  have unchanged (same : s.move (.perform number (.abort before.label)) = s) :
      Fit (s.move (.perform number (.abort before.label))) id task := by
    rw [same] at there ⊢
    exact wellFormed.fit id task there
  by_cases known : before.label ∈ s.observers
  · have aborts : s.move (.perform number (.abort before.label)) = s.abort before.label := by
      simp [Session.move,perform?,known]
    rcases abort_cases s before.label with same | ⟨k,found,here',named,made⟩
    · exact unchanged (aborts.trans same)
    · obtain rfl := wellFormed.labels k id found before here' here named
      obtain rfl : found = before := by simpa [here] using here'.symm
      rw [aborts,made] at there ⊢
      have inside : k < s.tasks.length := (List.getElem?_eq_some_iff.mp here).1
      obtain rfl : { found with aborted := true } = task := by simpa [inside] using there
      have free : found.job.owns? = none := fit.observer.mp known
      refine ⟨fit.observer,fit.silent,fun p owns => ?_,fun p observes => ?_⟩
      · rw [free] at owns
        cases owns
      · exact ⟨(fit.told p observes).1,.inl (by simp),fun _ => by simp⟩
  · exact unchanged (by simp [Session.move,perform?,known])

theorem WellFormed.move {m : Move α} (wellFormed : WellFormed s) (fits : s.Fits m) : WellFormed (s.move m) where
  fit k task there := by
    rcases stems fits there with ⟨before,here,-⟩ | ⟨rfl,⟨command,rfl⟩,-⟩
    · by_cases mine : s.Mine m k
      · rcases mine with rfl | ⟨number,aborted,rfl,same⟩
        · exact wellFormed.fit_turn there
        · exact wellFormed.fit_abort fits same there
      · have apart := move_apart fits
        have stays := apart.tasks k _ mine here
        obtain rfl : before = task := by simpa [there] using stays.symm
        exact (wellFormed.fit k before here).apart apart mine (wellFormed.hushed here mine)
          (fun p => wellFormed.foreign here mine) (WellFormed.back fits here)
    · exact wellFormed.fit_new fits there
  labels i j a b thereA thereB same := by
    rcases stems fits thereA with ⟨a',hereA,labelA,-⟩ | ⟨rfl,⟨command,made⟩,-⟩
    · rcases stems fits thereB with ⟨b',hereB,labelB,-⟩ | ⟨rfl,⟨command,made⟩,-⟩
      · exact wellFormed.labels i j a' b' hereA hereB (by rw [← labelA,← labelB,same])
      · subst made
        exact absurd (by rw [← labelA,same]) (fits.1.tasks i a' hereA)
    · rcases stems fits thereB with ⟨b',hereB,labelB,-⟩ | ⟨rfl,-⟩
      · subst made
        exact absurd (by rw [← labelB,same]) (fits.1.tasks j b' hereB)
      · rfl
  owners i j a b p thereA thereB ownsA ownsB := by
    have inside {k : Nat} {before : Task α} (here : s.tasks[k]? = some (some before))
        (owns : before.job.owns? = some p) : p < s.promises.length := by
      obtain ⟨-,q,found,-⟩ := (wellFormed.fit k before here).owner p owns
      exact (List.getElem?_eq_some_iff.mp found).1
    rcases stems fits thereA with ⟨a',hereA,-,sameA⟩ | ⟨rfl,-,newA⟩
    · rcases stems fits thereB with ⟨b',hereB,-,sameB⟩ | ⟨rfl,-,newB⟩
      · exact wellFormed.owners i j a' b' p hereA hereB (sameA ▸ ownsA) (sameB ▸ ownsB)
      · have := inside hereA (sameA ▸ ownsA)
        have := newB p ownsB
        omega
    · rcases stems fits thereB with ⟨b',hereB,-,sameB⟩ | ⟨rfl,-⟩
      · have := inside hereB (sameB ▸ ownsB)
        have := newA p ownsA
        omega
      · rfl
  handles h member := by
    rcases (handles_after fits member).2 with ⟨g,old,same⟩ | inside
    · have there := List.getElem?_eq_getElem (same ▸ wellFormed.handles g old)
      obtain ⟨q,later,-⟩ := (move_apart fits).promise h.2 _ there
      exact (List.getElem?_eq_some_iff.mp later).1
    · exact inside

theorem wellFormed_of_begun (begun : Begun s) : WellFormed s := by
  apply Reaches.keeps begun
  · exact ⟨by simp,by simp,by simp,by simp⟩
  · exact fun u m _ fits _ wellFormed => wellFormed.move fits

end Session
end EditorLink.Promise
